import DeviceDescription.Proofs.Redirection
import DeviceDescription.Proofs.Tool
import Mathlib.Data.List.Forall2

/-!
# Diagnostics kept silent

Two sessions that differ in where their diagnostics go are one session as soon as both are silenced,
and silencing changes no answer. The tool is the same up to this: only the diagnostic that comes
first on standard error, if the description is rejected, tells a run that discards it from one that
does not.
-/

namespace DeviceDescription

namespace Session

theorem redirected_withSink (settings : Settings) (choice : SinkChoice) (sink sink' : Sink) :
    (withSink settings sink).redirected .silence =
      (withSink { settings with diagnostics := choice } sink').redirected .silence := rfl

/-- Sessions that are one when they are redirected answer the same and agree after each answer. -/
theorem performAll_of_redirected_eq {r : Redirection} {s s' : Session}
    (h : s.redirected r = s'.redirected r) (operations : List Operation) :
    List.Forall₂ StepAgrees (s.performAll operations) (s'.performAll operations) := by
  have hsame : (s.performAll operations).map (Prod.map id (redirected r)) =
      (s'.performAll operations).map (Prod.map id (redirected r)) := by
    rw [← performAll_redirected, h, performAll_redirected]
  rw [← List.forall₂_eq_eq_eq, List.forall₂_map_left_iff, List.forall₂_map_right_iff] at hsame
  refine hsame.imp ?_
  intro step step' hstep
  obtain ⟨hanswer, hleft⟩ := Prod.ext_iff.mp hstep
  exact ⟨hanswer.symm, agrees_of_redirected_eq hleft⟩

end Session

namespace Command

/-- The settings with diagnostics discarded. -/
def silenced (settings : Settings) : Settings := { settings with diagnostics := .discard }

section Silenced

variable (disk : Disk) (settings : Settings)

theorem opened_silenced (file : String) :
    opened disk (silenced settings) file = (opened disk settings file).redirected .silence :=
  congrArg Prod.snd ((Session.new settings).load_redirected .silence disk file)

theorem rejection?_silenced (task : Task) :
    rejection? disk (silenced settings) task = rejection? disk settings task := by
  have hsame : sessionAfter disk (silenced settings) task =
      (sessionAfter disk settings task).redirected .silence := by
    cases task with
    | check file | dump file json =>
      rw [sessionAfter, opened_silenced, Session.readDocument_redirected]
      rfl
    | walk file =>
      rw [sessionAfter, opened_silenced, Session.walk_redirected]
      rfl
    | tokens text => rfl
  rw [rejection?, hsame, Session.redirected_diagnostic?]
  rfl

theorem walk_silenced (file : String) :
    (opened disk (silenced settings) file).walk.1 = (opened disk settings file).walk.1 := by
  rw [opened_silenced, Session.walk_redirected]

theorem documentText_silenced {print : Document → Session → String}
    (hprint : ∀ doc s, print doc (Session.redirected .silence s) = print doc s) (file : String) :
    documentText print (opened disk (silenced settings) file) =
      documentText print (opened disk settings file) := by
  rw [opened_silenced, documentText, Session.readDocument_redirected, documentText]
  cases (opened disk settings file).readDocument.1 with
  | ok doc => exact hprint doc _
  | error d => rfl

variable {task : Task}

/-- A task on a description is performed the same whatever is done with diagnostics, but for what
the outcome shows of them. -/
theorem exists_ending (h : ∀ text, task ≠ .tokens text) :
    ∃ file stdout, ∀ choice : SinkChoice,
      perform disk { settings with diagnostics := choice } task =
        ending { settings with diagnostics := choice } file
          (rejection? disk (silenced settings) task) stdout := by
  have hdocument (file : String) {print : Document → Session → String}
      (hprint : ∀ doc s, print doc (Session.redirected .silence s) = print doc s)
      (choice : SinkChoice) :
      withDocument disk { settings with diagnostics := choice } file print =
        ending { settings with diagnostics := choice } file
          (rejection? disk (silenced settings) (.check file))
          (documentText print (opened disk (silenced settings) file)) := by
    rw [withDocument_eq, ← rejection?_silenced, ← documentText_silenced disk _ hprint]
    rfl
  cases task with
  | check file => exact ⟨file, _, hdocument file fun _ _ => rfl⟩
  | dump file json =>
    cases json with
    | true => exact ⟨file, _, hdocument file fun _ _ => rfl⟩
    | false => exact ⟨file, _, hdocument file fun _ _ => rfl⟩
  | walk file =>
    refine ⟨file, stepsText (opened disk (silenced settings) file).walk.1, ?_⟩
    intro choice
    rw [perform, walk_eq, ← rejection?_silenced, ← walk_silenced]
    rfl
  | tokens text => exact absurd rfl (h text)

/-- The diagnostic of a description that is rejected comes first on standard error, unless it is
discarded. -/
theorem perform_stderr (h : ∀ text, task ≠ .tokens text) :
    (rejection? disk settings task = none ∧
      (perform disk { settings with diagnostics := .stderr } task).code = 0 ∧
      perform disk { settings with diagnostics := .stderr } task =
        perform disk (silenced settings) task) ∨
    ∃ d, rejection? disk settings task = some d ∧
      (perform disk { settings with diagnostics := .stderr } task).code = 1 ∧
      perform disk { settings with diagnostics := .stderr } task =
        { perform disk (silenced settings) task with
          stderr := d.text ++ "\n" ++ (perform disk (silenced settings) task).stderr } := by
  obtain ⟨file, stdout, hperform⟩ := exists_ending disk settings h
  have hquiet : perform disk (silenced settings) task = _ := hperform .discard
  rw [hperform .stderr, hquiet, rejection?_silenced]
  cases rejection? disk settings task with
  | none => exact .inl ⟨rfl, rfl, rfl⟩
  | some d =>
    refine .inr ⟨d, rfl, rfl, ?_⟩
    rw [ending, ending]
    dsimp only
    rw [SinkChoice.notice_stderr, SinkChoice.notice_discard, String.empty_append]

end Silenced

end Command

/-- Sessions that differ in what their settings say about diagnostics, or in the sink, answer any
operations the same and agree after each one. Runs of the tool that differ in this alone, on a
description, differ at most in standard error: it begins with the diagnostic if that is written
there and the description is rejected. -/
theorem answers_wherever_reported :
    (∀ (settings : Settings) (choice : SinkChoice) (sink sink' : Sink)
        (operations : List Operation),
      List.Forall₂ Session.StepAgrees ((Session.withSink settings sink).performAll operations)
        ((Session.withSink { settings with diagnostics := choice } sink').performAll
          operations)) ∧
    ∀ (disk : Disk) (arguments arguments' : List String) (settings : Settings) (task : Task),
      (∀ text, task ≠ .tokens text) →
      Command.Asks disk arguments { settings with diagnostics := .stderr } task →
      Command.Asks disk arguments' { settings with diagnostics := .discard } task →
      (Command.rejection? disk settings task = none ∧
        (runTool disk arguments).code = 0 ∧
        runTool disk arguments = runTool disk arguments') ∨
      ∃ d, Command.rejection? disk settings task = some d ∧
        (runTool disk arguments).code = 1 ∧
        runTool disk arguments =
          { runTool disk arguments' with
            stderr := d.text ++ "\n" ++ (runTool disk arguments').stderr } := by
  refine ⟨?_, ?_⟩
  · intro settings choice sink sink' operations
    apply Session.performAll_of_redirected_eq
    exact Session.redirected_withSink settings choice sink sink'
  · intro disk arguments arguments' settings task htask hloud hquiet
    rw [hloud.runTool_eq, hquiet.runTool_eq]
    exact Command.perform_stderr disk settings htask

/-- Settings that discard diagnostics, beside a description that is rejected. -/
def quietArm : Disk :=
  .ofTexts [("quiet.json", "\x7b\"error_sink\": \"discard\"\x7d"), ("arm.dd", "begin arm\nend\n")]

def untypedEnd : Diagnostic :=
  ⟨.missingArgument "end", some ⟨"arm.dd", 2, "end"⟩, "'end' requires an argument"⟩

/-- A session whose sink refuses every write finds the arm to be closed without a type like any
other, and a walk that discards diagnostics prints all that one prints which does not, but the
first of its two reports. -/
theorem answers_quietArm :
    List.Forall₂ Session.StepAgrees
        ((Session.withSink {} (.keeping "")).performAll
          [.load quietArm "arm.dd", .call .readDocument])
        ((Session.withSink {} .refusing).performAll
          [.load quietArm "arm.dd", .call .readDocument]) ∧
      runTool quietArm ["walk", "arm.dd"] =
        { runTool quietArm ["--config", "quiet.json", "walk", "arm.dd"] with
          stderr := untypedEnd.text ++ "\n" ++
            (runTool quietArm ["--config", "quiet.json", "walk", "arm.dd"]).stderr } := by
  obtain ⟨hsessions, hruns⟩ := answers_wherever_reported
  have hrejected : Command.rejection? quietArm {} (.walk "arm.dd") = some untypedEnd := by
    decide +kernel
  refine ⟨hsessions {} .stderr _ _ _, ?_⟩
  have hloud : Command.Asks quietArm ["walk", "arm.dd"] {} (.walk "arm.dd") :=
    Command.asks_of_defaults quietArm (by decide +kernel)
  have hquiet : Command.Asks quietArm ["--config", "quiet.json", "walk", "arm.dd"]
      { diagnostics := .discard } (.walk "arm.dd") :=
    ⟨⟨some "quiet.json", false, .walk "arm.dd"⟩, by decide +kernel, rfl, by decide +kernel⟩
  rcases hruns quietArm _ _ {} _ (fun text => by simp) hloud hquiet with
    ⟨haccepted, -⟩ | ⟨d, hd, -, hrun⟩
  · rw [hrejected] at haccepted
    cases haccepted
  · obtain rfl := Option.some.inj (hrejected.symm.trans hd)
    exact hrun

end DeviceDescription
