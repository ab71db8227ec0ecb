import DeviceDescription.Proofs.WalkOutput

/-!
# The subcommands compared

Checking a description and dumping it both make the document, and so end alike. A walk goes through
the same signals without making anything of them; so it passes over just the one fault that no
signal shows, a block still open at the end of the lines.
-/

namespace DeviceDescription

/-- A walk ends as the making of the document does, unless all that is wrong is that a block is left
open. -/
theorem Session.readDocument_diagnostic?_cases (s : Session) :
    s.readDocument.2.diagnostic? = s.walk.2.diagnostic? ∨
      ∃ d type, s.walk.2.diagnostic? = none ∧ s.readDocument.2.diagnostic? = some d ∧
        d.fault = .unterminatedBlock type := by
  rcases s.readDocument_eq_walk_or_halt with he | ⟨type, he⟩
  · exact .inl (congrArg diagnostic? he)
  · rw [he]
    cases hd : s.walk.2.diagnostic? with
    | some d =>
      rw [halt, hd]
      exact .inl hd
    | none =>
      rw [halt, hd]
      exact .inr ⟨_, type, rfl, rfl, s.walk.2.fail_fault _ _⟩

namespace Command

/-- How the outcomes of four tasks go together: of checking the description in `file`, of dumping it
as text and as JSON, and of walking through it. The session is the one that has loaded it. -/
structure Agree (settings : Settings) (file : String) (s : Session)
    (check dump json walk : Outcome) : Prop where
  alike : (check.code = 0 ∧ dump.code = 0 ∧ json.code = 0) ∨
    check.code = 1 ∧ check.stdout = "" ∧ dump = check ∧ json = check
  accepted : check.code = 0 → walk.code = 0
  rejected : walk.code = 0 ∨ walk.code = 1 ∧ check.code = 1 ∧ walk.stderr = check.stderr
  unterminated : walk.code = 0 → check.code = 1 →
    ∃ d type, s.readDocument.1 = .error d ∧ d.fault = .unterminatedBlock type ∧
      check.stderr = settings.diagnostics.notice (some d) ++ (rejection file d).text
  counted : check.code = 0 →
    ∃ doc n, s.readDocument.1 = .ok doc ∧ doc.devices.length = n ∧
      check.stdout = s!"ok: {n} devices ({s.lines.length} lines, {s.filesOpened} files)\n" ∧
      json.stdout = doc.toJson.pretty ++ "\n" ∧
      linesStarting "begin" walk.stdout = n ∧ linesStarting "end" walk.stdout = n

section Agree

variable (disk : Disk) (settings : Settings) (file : String)

/-- Whatever is printed of the document, either there is one or its diagnostic is all that is said. -/
theorem withDocument_cases :
    (∃ doc, (opened disk settings file).readDocument.1 = .ok doc ∧
      rejection? disk settings (.check file) = none ∧
      ∀ print, withDocument disk settings file print =
        ⟨0, print doc (opened disk settings file).readDocument.2, ""⟩) ∨
    ∃ d, (opened disk settings file).readDocument.1 = .error d ∧
      rejection? disk settings (.check file) = some d ∧
      ∀ print, withDocument disk settings file print =
        ⟨1, "", settings.diagnostics.notice (some d) ++ (rejection file d).text⟩ := by
  rcases (opened disk settings file).readDocument_cases with ⟨doc, hread, hd⟩ | ⟨d, hread, hd⟩
  · refine .inl ⟨doc, hread, hd, ?_⟩
    intro print
    rw [withDocument_eq, rejection?, sessionAfter, hd, documentText, hread, ending]
  · refine .inr ⟨d, hread, hd, ?_⟩
    intro print
    rw [withDocument_eq, rejection?, sessionAfter, hd, documentText, hread, ending]

theorem load_of_readDocument {doc : Document}
    (h : (opened disk settings file).readDocument.1 = .ok doc) :
    ((Session.new settings).load disk file).1 = .ok () := by
  rcases (Session.new settings).load_answer disk file with ⟨hok, -⟩ | ⟨d, -, hstatus⟩
  · exact hok
  · have hd := Session.diagnostic?_eq_some_iff.mpr hstatus
    rw [opened, Session.readDocument_of_diagnostic hd] at h
    cases h

theorem agree_of_ok {doc : Document}
    (hread : (opened disk settings file).readDocument.1 = .ok doc)
    (hprint : ∀ print, withDocument disk settings file print =
      ⟨0, print doc (opened disk settings file).readDocument.2, ""⟩)
    (hwalk : rejection? disk settings (.walk file) = none) :
    Agree settings file (opened disk settings file)
      (perform disk settings (.check file)) (perform disk settings (.dump file false))
      (perform disk settings (.dump file true)) (perform disk settings (.walk file)) := by
  have hload := load_of_readDocument disk settings file hread
  have honward := (opened disk settings file).readDocument_onward
  have hwalked : perform disk settings (.walk file) =
      ⟨0, stepsText (opened disk settings file).walk.1, ""⟩ := by
    rw [perform, walk_eq, hwalk, ending]
  rw [hwalked, perform, perform, perform, hprint, hprint, hprint]
  refine ⟨.inl ⟨rfl, rfl, rfl⟩, fun _ => rfl, .inl rfl, ?unterminated, ?counted⟩
  case unterminated =>
    intro _ hcode
    cases hcode
  case counted =>
    intro _
    refine ⟨doc, _, hread, rfl, ?_, rfl, linesStarting_walk hload (.inl rfl) hread,
      linesStarting_walk hload (.inr rfl) hread⟩
    dsimp only
    rw [checkText, honward.lines, honward.filesOpened]

theorem agree_of_error {d : Diagnostic}
    (hread : (opened disk settings file).readDocument.1 = .error d)
    (hprint : ∀ print, withDocument disk settings file print =
      ⟨1, "", settings.diagnostics.notice (some d) ++ (rejection file d).text⟩)
    (hwalk : rejection? disk settings (.walk file) = some d ∨
      rejection? disk settings (.walk file) = none ∧ ∃ type, d.fault = .unterminatedBlock type) :
    Agree settings file (opened disk settings file)
      (perform disk settings (.check file)) (perform disk settings (.dump file false))
      (perform disk settings (.dump file true)) (perform disk settings (.walk file)) := by
  rw [perform, perform, perform, perform, hprint, hprint, hprint, walk_eq]
  refine ⟨.inr ⟨rfl, rfl, rfl, rfl⟩, ?accepted, ?rejected, ?unterminated, ?counted⟩
  case accepted | counted =>
    intro hcode
    cases hcode
  case rejected =>
    rcases hwalk with hsame | ⟨hnone, -⟩
    · rw [hsame]
      exact .inr ⟨rfl, rfl, rfl⟩
    · rw [hnone]
      exact .inl rfl
  case unterminated =>
    intro hcode _
    rcases hwalk with hsame | ⟨-, type, hfault⟩
    · rw [hsame] at hcode
      cases hcode
    · exact ⟨d, type, hread, hfault, rfl⟩

end Agree

end Command

/-- Whatever the files are and the settings, if four runs of the tool are asked to check the same
description, to dump it, to dump it as JSON and to walk through it, their outcomes go together. -/
theorem subcommands_agree {disk : Disk} {settings : Settings} {file : String}
    {check dump json walk : List String}
    (hcheck : Command.Asks disk check settings (.check file))
    (hdump : Command.Asks disk dump settings (.dump file false))
    (hjson : Command.Asks disk json settings (.dump file true))
    (hwalk : Command.Asks disk walk settings (.walk file)) :
    Command.Agree settings file (Command.opened disk settings file) (runTool disk check)
      (runTool disk dump) (runTool disk json) (runTool disk walk) := by
  rw [hcheck.runTool_eq, hdump.runTool_eq, hjson.runTool_eq, hwalk.runTool_eq]
  have hends := (Command.opened disk settings file).readDocument_diagnostic?_cases
  rcases Command.withDocument_cases disk settings file with
    ⟨doc, hread, hnone, hprint⟩ | ⟨d, hread, hd, hprint⟩
  · refine Command.agree_of_ok disk settings file hread hprint ?_
    rcases hends with hsame | ⟨d, type, -, hd, -⟩
    · exact hsame.symm.trans hnone
    · cases hnone.symm.trans hd
  · refine Command.agree_of_error disk settings file hread hprint ?_
    rcases hends with hsame | ⟨d', type, hnone, hd', hfault⟩
    · exact .inl (hsame.symm.trans hd)
    · obtain rfl := Option.some.inj (hd.symm.trans hd')
      exact .inr ⟨hnone, type, hfault⟩

/-- An arm with a label that looks like the beginning of a block, and one that is left open. -/
def arms : Disk :=
  .ofTexts [("arm.dd", "begin arm\n  label \"begin\tarm\"\nend arm\n"), ("half.dd", "begin arm\n")]

theorem subcommands_arms :
    runTool arms ["check", "arm.dd"] = ⟨0, "ok: 1 devices (3 lines, 1 files)\n", ""⟩ ∧
      linesStarting "begin" (runTool arms ["walk", "arm.dd"]).stdout = 1 ∧
      (runTool arms ["walk", "half.dd"]).code = 0 ∧
      ∃ d type, d.fault = .unterminatedBlock type ∧
        runTool arms ["dump", "--json", "half.dd"] =
          ⟨1, "", d.text ++ "\n" ++ (Command.rejection "half.dd" d).text⟩ := by
  have hwhole : Command.Agree {} "arm.dd" (Command.opened arms {} "arm.dd")
      (runTool arms ["check", "arm.dd"]) (runTool arms ["dump", "arm.dd"])
      (runTool arms ["dump", "--json", "arm.dd"]) (runTool arms ["walk", "arm.dd"]) :=
    subcommands_agree (Command.asks_of_defaults arms (by decide +kernel))
      (Command.asks_of_defaults arms (by decide +kernel))
      (Command.asks_of_defaults arms (by decide +kernel))
      (Command.asks_of_defaults arms (by decide +kernel))
  have hhalf : Command.Agree {} "half.dd" (Command.opened arms {} "half.dd")
      (runTool arms ["check", "half.dd"]) (runTool arms ["dump", "half.dd"])
      (runTool arms ["dump", "--json", "half.dd"]) (runTool arms ["walk", "half.dd"]) :=
    subcommands_agree (Command.asks_of_defaults arms (by decide +kernel))
      (Command.asks_of_defaults arms (by decide +kernel))
      (Command.asks_of_defaults arms (by decide +kernel))
      (Command.asks_of_defaults arms (by decide +kernel))
  have hcheck : runTool arms ["check", "arm.dd"] =
      ⟨0, "ok: 1 devices (3 lines, 1 files)\n", ""⟩ := by decide +kernel
  have hdocument : (Command.opened arms {} "arm.dd").readDocument.1 =
      .ok ⟨[], [⟨"arm", "arm.dd", 1, [["label", "begin\tarm"]]⟩]⟩ := by decide +kernel
  have hopen : (runTool arms ["walk", "half.dd"]).code = 0 := by decide +kernel
  have hrejected : (runTool arms ["check", "half.dd"]).code = 1 := by decide +kernel
  obtain ⟨doc, _, hread, rfl, -, -, hbegin, -⟩ := hwhole.counted (by rw [hcheck])
  rw [hdocument] at hread
  obtain rfl := Except.ok.inj hread
  obtain ⟨d, type, -, hfault, hstderr⟩ := hhalf.unterminated hopen hrejected
  rw [SinkChoice.notice_stderr] at hstderr
  refine ⟨hcheck, hbegin, hopen, d, type, hfault, ?_⟩
  rcases hhalf.alike with ⟨haccepted, -⟩ | ⟨-, hstdout, -, hsame⟩
  · cases hrejected.symm.trans haccepted
  · rw [hsame, ← hstderr, ← hstdout, ← hrejected]

end DeviceDescription
