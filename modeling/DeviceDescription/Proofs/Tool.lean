import DeviceDescription.Command.Run
import DeviceDescription.Proofs.Trace

/-!
# Outcomes of the tool

A task that reads a description comes down to one session: the description is loaded, and the
document is made or the signals are gone through. The description is rejected exactly if that
session ends up halted, whichever of its operations it was that failed, and the exit code, the
closing report and what standard error has had before it depend on nothing but the diagnostic.
-/

namespace DeviceDescription

/-- The sink of a session that has reported the diagnostic, if there is one, and nothing else. -/
def SinkChoice.sinkAfter (choice : SinkChoice) (d? : Option Diagnostic) : Sink :=
  match choice with
  | .stderr => .keeping (transcript d?.toList)
  | .discard => .discarding

/-- What standard error has got from that session. -/
def SinkChoice.notice (choice : SinkChoice) (d? : Option Diagnostic) : String :=
  (choice.sinkAfter d?).written

@[simp] theorem SinkChoice.notice_none (choice : SinkChoice) : choice.notice none = "" := by
  cases choice <;> rfl

theorem SinkChoice.notice_stderr (d : Diagnostic) : stderr.notice (some d) = d.text ++ "\n" :=
  transcript_singleton d

theorem SinkChoice.notice_discard (d? : Option Diagnostic) : discard.notice d? = "" := rfl

namespace Session

section Sink

variable {choice : SinkChoice} {s s' : Session}

theorem new_sink_eq (settings : Settings) :
    (new settings).reporter.sink = settings.diagnostics.sinkAfter none := by
  obtain ⟨showIncludes, depthLimit, choice⟩ := settings
  cases choice <;> rfl

/-- A session that has told no more than what has halted it goes on to do so. -/
theorem Reports.sinkAfter_eq (h : s.Reports s')
    (hs : s.reporter.sink = choice.sinkAfter s.diagnostic?) :
    s'.reporter.sink = choice.sinkAfter s'.diagnostic? := by
  cases h with
  | nothing hd hr =>
    rw [hr, hd]
    exact hs
  | fault d hrun hd _ hr =>
    rw [hrun] at hs
    rw [hr, hd, Reporter.sent, hs]
    cases choice with
    | stderr => simp [SinkChoice.sinkAfter, transcript, Sink.write]
    | discard => rfl

theorem load_sinkAfter_eq (settings : Settings) (disk : Disk) (path : String) :
    ((new settings).load disk path).2.reporter.sink =
      settings.diagnostics.sinkAfter ((new settings).load disk path).2.diagnostic? := by
  obtain ⟨t, hrun, hr, hreports⟩ := (new settings).load_reports disk path
  apply hreports.sinkAfter_eq
  rw [hr, hrun]
  exact new_sink_eq settings

theorem walk_reports (s : Session) : s.Reports s.walk.2 :=
  walk_of_next (fun t h => h.trans t.next_reports) (.refl s)

end Sink

/-- The last signal of a walk is the one that leaves the session in the status that it is in. -/
theorem walk_getLast? (s : Session) :
    ∃ signal source, s.walk.1.getLast? = some (signal, source) ∧ signal.isLast = true ∧
      s.walk.2.status = signal.status := by
  induction s using walk_induction with
  | last s hlast =>
    rw [walk_of_isLast hlast]
    exact ⟨_, _, rfl, hlast, s.next_status_eq⟩
  | more s hlast ih =>
    obtain ⟨signal, source, hend, hlast', hstatus⟩ := ih
    rw [walk_of_not_isLast hlast, List.getLast?_cons, hend]
    exact ⟨signal, source, rfl, hlast', hstatus⟩

/-- A walk ends with the diagnostic that the session is then halted by, or else with the end of the
lines. -/
theorem walk_cases (s : Session) :
    (∃ source, s.walk.1.getLast? = some (.endOfStream, source) ∧ s.walk.2.diagnostic? = none) ∨
      ∃ d source, s.walk.1.getLast? = some (.error d, source) ∧
        s.walk.2.diagnostic? = some d := by
  obtain ⟨signal, source, hend, hlast, hstatus⟩ := s.walk_getLast?
  rw [diagnostic?, hstatus]
  cases signal with
  | endOfStream => exact .inl ⟨source, hend, rfl⟩
  | error d => exact .inr ⟨d, source, hend, rfl⟩
  | beginDevice | endDevice | content => cases hlast

/-- A document is made, or not made with the diagnostic that the session is then halted by. -/
theorem readDocument_cases (s : Session) :
    (∃ doc, s.readDocument.1 = .ok doc ∧ s.readDocument.2.diagnostic? = none) ∨
      ∃ d, s.readDocument.1 = .error d ∧ s.readDocument.2.diagnostic? = some d := by
  rw [readDocument_eq]
  rcases s.readFrom_answer .blank with ⟨doc, hanswer, hstatus⟩ | ⟨d, hanswer, hstatus⟩
  · exact .inl ⟨doc, hanswer, by rw [diagnostic?, hstatus]⟩
  · exact .inr ⟨d, hanswer, diagnostic?_eq_some_iff.mpr hstatus⟩

end Session

namespace Command

/-- The session that has loaded the description, or failed to. -/
def opened (disk : Disk) (settings : Settings) (file : String) : Session :=
  ((Session.new settings).load disk file).2

/-- The session at the end of a task. -/
def sessionAfter (disk : Disk) (settings : Settings) : Task → Session
  | .check file | .dump file _ => (opened disk settings file).readDocument.2
  | .walk file => (opened disk settings file).walk.2
  | .tokens _ => .new settings

/-- The diagnostic that a description is rejected with. -/
def rejection? (disk : Disk) (settings : Settings) (task : Task) : Option Diagnostic :=
  (sessionAfter disk settings task).diagnostic?

/-- What signals are printed as. -/
def stepsText (steps : List (Signal × Option Line)) : String :=
  String.join (steps.map fun step => signalText step.1)

theorem stepsText_cons (signal : Signal) (source : Option Line)
    (steps : List (Signal × Option Line)) :
    stepsText ((signal, source) :: steps) = signalText signal ++ stepsText steps :=
  String.join_cons

/-- What a document is printed as, if one is made. -/
def documentText (print : Document → Session → String) (s : Session) : String :=
  match s.readDocument.1 with
  | .ok doc => print doc s.readDocument.2
  | .error _ => ""

/-- The outcome when a description is accepted or rejected, and this much has been printed. -/
def ending (settings : Settings) (file : String) : Option Diagnostic → String → Outcome
  | none, stdout => ⟨0, stdout, ""⟩
  | some d, stdout => ⟨1, stdout, settings.diagnostics.notice (some d) ++ (rejection file d).text⟩

section Outcome

variable (disk : Disk) (settings : Settings) (file : String)

theorem written_sessionAfter (task : Task) :
    (sessionAfter disk settings task).reporter.sink.written =
      settings.diagnostics.notice (rejection? disk settings task) := by
  have hopened (file : String) := Session.load_sinkAfter_eq settings disk file
  apply congrArg Sink.written
  cases task with
  | check file | dump file json => exact (Session.readDocument_reports _).sinkAfter_eq (hopened file)
  | walk file => exact (Session.walk_reports _).sinkAfter_eq (hopened file)
  | tokens text => exact Session.new_sink_eq settings

theorem opened_of_error {d : Diagnostic} {s : Session}
    (h : (Session.new settings).load disk file = (.error d, s)) :
    opened disk settings file = s ∧ s.diagnostic? = some d := by
  have hstatus := (Session.load_status disk file).mpr (congrArg Prod.fst h)
  rw [h] at hstatus
  exact ⟨congrArg Prod.snd h, Session.diagnostic?_eq_some_iff.mpr hstatus⟩

theorem opened_of_ok {s : Session} (h : (Session.new settings).load disk file = (.ok (), s)) :
    opened disk settings file = s :=
  congrArg Prod.snd h

variable {settings}

theorem ending_of_none {s : Session} (hd : s.diagnostic? = none) (stdout : String)
    (hwritten : s.reporter.sink.written = settings.diagnostics.notice s.diagnostic?) :
    ending settings file s.diagnostic? stdout = ⟨0, stdout, s.reporter.sink.written⟩ := by
  rw [hwritten, hd, SinkChoice.notice_none, ending]

theorem ending_of_some {s : Session} {d : Diagnostic} (hd : s.diagnostic? = some d)
    (stdout : String)
    (hwritten : s.reporter.sink.written = settings.diagnostics.notice s.diagnostic?) :
    ending settings file s.diagnostic? stdout = rejected file stdout d s := by
  rw [rejected, hwritten, hd, ending]

variable (settings)

/-- The document is printed, or the description is rejected. -/
theorem withDocument_eq (print : Document → Session → String) :
    withDocument disk settings file print =
      ending settings file (rejection? disk settings (.check file))
        (documentText print (opened disk settings file)) := by
  have hwritten := written_sessionAfter disk settings (.check file)
  rw [rejection?, sessionAfter] at hwritten ⊢
  rw [withDocument, documentText]
  cases hload : (Session.new settings).load disk file with
  | mk answer s =>
    cases answer with
    | error d =>
      obtain ⟨hopened, hd⟩ := opened_of_error disk settings file hload
      rw [hopened, Session.readDocument_of_diagnostic hd] at hwritten ⊢
      exact (ending_of_some file hd "" hwritten).symm
    | ok =>
      rw [opened_of_ok disk settings file hload] at hwritten ⊢
      dsimp only
      rcases s.readDocument_cases with ⟨doc, hanswer, hd⟩ | ⟨d, hanswer, hd⟩
      · have hread : s.readDocument = (.ok doc, s.readDocument.2) := Prod.ext hanswer rfl
        rw [hread]
        exact (ending_of_none file hd _ hwritten).symm
      · have hread : s.readDocument = (.error d, s.readDocument.2) := Prod.ext hanswer rfl
        rw [hread]
        exact (ending_of_some file hd "" hwritten).symm

/-- The signals are printed, and the description is rejected if the last one is a diagnostic. -/
theorem walk_eq :
    walk disk settings file =
      ending settings file (rejection? disk settings (.walk file))
        (stepsText (opened disk settings file).walk.1) := by
  have hwritten := written_sessionAfter disk settings (.walk file)
  rw [rejection?, sessionAfter] at hwritten ⊢
  rw [walk]
  cases hload : (Session.new settings).load disk file with
  | mk answer s =>
    cases answer with
    | error d =>
      obtain ⟨hopened, hd⟩ := opened_of_error disk settings file hload
      rw [hopened, Session.walk_of_diagnostic hd] at hwritten ⊢
      exact (ending_of_some file hd "" hwritten).symm
    | ok =>
      rw [opened_of_ok disk settings file hload] at hwritten ⊢
      dsimp only
      rcases s.walk_cases with ⟨source, hend, hd⟩ | ⟨d, source, hend, hd⟩
      · rw [hend]
        exact (ending_of_none file hd _ hwritten).symm
      · rw [hend]
        exact (ending_of_some file hd _ hwritten).symm

end Outcome

/-- The arguments of a run say to perform the task under the settings. -/
def Asks (disk : Disk) (arguments : List String) (settings : Settings) (task : Task) : Prop :=
  ∃ invocation, Request.ofArguments arguments = .run invocation ∧ invocation.task = task ∧
    readSettings disk invocation = .ok settings

theorem Asks.runTool_eq {disk : Disk} {arguments : List String} {settings : Settings} {task : Task}
    (h : Asks disk arguments settings task) :
    runTool disk arguments = perform disk settings task := by
  obtain ⟨invocation, hrun, rfl, hsettings⟩ := h
  rw [runTool, hrun, respond, hsettings]

theorem asks_of_defaults (disk : Disk) {arguments : List String} {task : Task}
    (h : Request.ofArguments arguments = .run ⟨none, false, task⟩) : Asks disk arguments {} task :=
  ⟨_, h, rfl, rfl⟩

end Command

end DeviceDescription
