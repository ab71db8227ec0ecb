import DeviceDescription.Proofs.Alternation
import DeviceDescription.Proofs.FirstFault

/-!
# Faults are reported once

An operation reports nothing, or it is the one that halts the session, and then it reports the fault
that has done so and no other. `Reports` says this of two sessions, and two such steps in a row are
one, since a session that is halted reports nothing until the next load. So a sink that keeps what is
written to it holds the texts of the faults that have halted the session, each of them once; and as
nothing is pending between two operations, each message is that of its own fault.
-/

namespace DeviceDescription

/-- The reporter once the diagnostic has gone to the sink. -/
def Reporter.sent (r : Reporter) (d : Diagnostic) : Reporter :=
  ⟨(r.sink.write (d.text ++ "\n")).getD r.sink, ""⟩

/-- The texts of the diagnostics, each with a newline after it. -/
def transcript (ds : List Diagnostic) : String := String.join (ds.map fun d => d.text ++ "\n")

theorem transcript_append (ds more : List Diagnostic) :
    transcript (ds ++ more) = transcript ds ++ transcript more := by
  rw [transcript, List.map_append, String.join_append]
  rfl

theorem transcript_singleton (d : Diagnostic) : transcript [d] = d.text ++ "\n" := by
  simp [transcript]

/-- The diagnostic that a call has answered with. -/
def Reply.diagnostic? : Reply → Option Diagnostic
  | .signal (.error d) | .tokens (.error d) | .diagnostic d | .document (.error d)
  | .status (.error d) => some d
  | .signal _ | .tokens (.ok _) | .document (.ok _) | .status _ | .line _ | .lines _ | .blockType _
  | .filesOpened _ => none

namespace Session

/-- From the first session to the second nothing has been reported, and it has not been halted
either; or one fault has been reported, the one that has halted it. -/
inductive Reports (s s' : Session) : Prop
  | nothing : s'.diagnostic? = s.diagnostic? → s'.reporter = s.reporter → Reports s s'
  | fault (d : Diagnostic) : s.diagnostic? = none → s'.diagnostic? = some d →
      d.message = s.reporter.pending ++ d.fault.message → s'.reporter = s.reporter.sent d →
      Reports s s'

/-- Nothing is pending, and the diagnostic that has halted the session has the message of its fault
alone. -/
structure Clean (s : Session) : Prop where
  pending : s.reporter.pending = ""
  message : ∀ d, s.diagnostic? = some d → d.message = d.fault.message

/-- The sink keeps what is written to it, and from the first session to the second that was the
text. -/
def Writes (s s' : Session) (text : String) : Prop :=
  ∃ written, s.reporter.sink = .keeping written ∧ s'.reporter.sink = .keeping (written ++ text)

/-- The diagnostic with which a call halts a session that was not halted. -/
def raised? (s : Session) (call : Call) : Option Diagnostic :=
  match s.diagnostic? with
  | some _ => none
  | none => (s.reply call).1.diagnostic?

/-- A session that has been made by loads and other calls from a new one, whose sink was empty and
keeps what is written to it, with the diagnostics of those that have halted it. -/
inductive Told : Session → List Diagnostic → Prop
  | new (settings : Settings) : Told (withSink settings (.keeping "")) []
  | load {s told} (disk : Disk) (path : String) : Told s told →
      Told (s.load disk path).2 (told ++ (Result.load (s.load disk path).1).diagnostic?.toList)
  | call {s told} (call : Call) : Told s told →
      Told (s.reply call).2 (told ++ (s.raised? call).toList)

namespace Reports

variable {s s' s'' : Session}

theorem refl (s : Session) : s.Reports s := .nothing rfl rfl

theorem trans (h : s.Reports s') (h' : s'.Reports s'') : s.Reports s'' := by
  cases h with
  | nothing hd hr =>
    cases h' with
    | nothing hd' hr' => exact .nothing (hd'.trans hd) (hr'.trans hr)
    | fault d hrun hd' hm hr' =>
      rw [hr] at hm hr'
      exact .fault d (hd.symm.trans hrun) hd' hm hr'
  | fault d hrun hd hm hr =>
    cases h' with
    | nothing hd' hr' => exact .fault d hrun (hd'.trans hd) hm (hr'.trans hr)
    | fault d' hrun' =>
      rw [hd] at hrun'
      cases hrun'

theorem reporter_eq (h : s.Reports s') (hrun : s'.diagnostic? = none) : s'.reporter = s.reporter := by
  cases h with
  | nothing _ hr => exact hr
  | fault d _ hd =>
    rw [hrun] at hd
    cases hd

theorem reporter_eq_of_halted (h : s.Reports s') {d : Diagnostic} (hs : s.diagnostic? = some d) :
    s'.reporter = s.reporter := by
  cases h with
  | nothing _ hr => exact hr
  | fault _ hrun =>
    rw [hs] at hrun
    cases hrun

theorem of_halts (h : s.Reports s') (hrun : s.diagnostic? = none) {d : Diagnostic}
    (hd : s'.diagnostic? = some d) :
    d.message = s.reporter.pending ++ d.fault.message ∧ s'.reporter = s.reporter.sent d := by
  cases h with
  | nothing hd' =>
    rw [hd', hrun] at hd
    cases hd
  | fault d' _ hd' hm hr =>
    rw [hd'] at hd
    obtain rfl := Option.some.inj hd
    exact ⟨hm, hr⟩

theorem clean (h : s.Reports s') (hs : s.Clean) : s'.Clean := by
  cases h with
  | nothing hd hr =>
    refine ⟨by rw [hr]; exact hs.pending, ?_⟩
    rw [hd]
    exact hs.message
  | fault d _ hd hm hr =>
    refine ⟨by rw [hr]; rfl, ?_⟩
    intro d' hd'
    rw [hd] at hd'
    obtain rfl := Option.some.inj hd'
    rw [hm, hs.pending, String.empty_append]

end Reports

/-! ### What the operations report -/

section Operations

variable (s : Session)

theorem fail_reports (hrun : s.diagnostic? = none) (fault : Fault) (site : Option Line) :
    s.Reports (s.fail fault site).2 :=
  .fault (s.fail fault site).1 hrun rfl rfl rfl

theorem halt_reports (fault : Fault) : s.Reports (s.halt fault).2 := by
  unfold halt
  cases hrun : s.diagnostic? with
  | some d => exact .refl s
  | none => exact s.fail_reports hrun fault s.lastLine?

theorem diagnostic?_of_not_isLast {signal : Signal} (h : signal.isLast = false)
    (hs : s.status = signal.status) : s.diagnostic? = none := by
  rw [diagnostic?, hs]
  cases signal with
  | beginDevice | endDevice | content => rfl
  | endOfStream | error => cases h

theorem deliver_reports (hrun : s.diagnostic? = none) (line : Line) (tokens : List String) :
    s.Reports (s.deliver line tokens).2 := by
  rcases s.deliver_cases line tokens with ⟨signal, block, hlast, he⟩ | ⟨fault, he⟩
  · rw [he]
    exact .nothing ((diagnostic?_of_not_isLast _ hlast rfl).trans hrun.symm) rfl
  · rw [he]
    exact s.fail_reports hrun fault (some line)

theorem advance_reports (hrun : s.diagnostic? = none) (lines : List Line) :
    s.Reports (s.advance lines).2 := by
  induction lines generalizing s with
  | nil => exact .nothing hrun.symm rfl
  | cons line rest ih =>
    have hpass : s.Reports (s.pass line rest) := .nothing rfl rfl
    have hrun' : (s.pass line rest).diagnostic? = none := hrun
    unfold advance
    split
    · exact hpass.trans ((s.pass line rest).fail_reports hrun' _ (some line))
    · dsimp only
      split
      · exact hpass.trans ((s.pass line rest).deliver_reports hrun' line _)
      · exact hpass.trans (ih (s.pass line rest) hrun')

theorem next_reports : s.Reports s.next.2 := by
  unfold next
  cases hrun : s.diagnostic? with
  | some d => exact .refl s
  | none => exact s.advance_reports hrun s.ahead

theorem readDocument_reports : s.Reports s.readDocument.2 :=
  readDocument_of_next (fun t h => h.trans t.next_reports) (fun t _ h => h.trans (t.halt_reports _))
    (.refl s)

theorem reply_reports (call : Call) : s.Reports (s.reply call).2 := by
  cases call with
  | next => exact s.next_reports
  | halt fault => exact s.halt_reports fault
  | readDocument => exact s.readDocument_reports
  | current | lastLine | status | lines | blockType | filesOpened => exact .refl s

/-- A load begins with a session that is not halted, and whose reporter is the one before. -/
theorem load_reports (disk : Disk) (path : String) :
    ∃ t : Session, t.diagnostic? = none ∧ t.reporter = s.reporter ∧
      t.Reports (s.load disk path).2 := by
  let e := expand disk s.settings.depthLimit.toNat path
  refine ⟨s.holding e, rfl, rfl, ?_⟩
  cases he : e.stop with
  | none =>
    rw [s.load_of_complete disk path he]
    exact .refl _
  | some stop =>
    rw [s.load_of_stopped disk path he]
    exact fail_reports _ rfl stop.fault stop.site

end Operations

/-! ### What is answered -/

/-- A call answers with the diagnostic that the session is then halted by, or with none and leaves
the session as it is. -/
theorem reply_diagnostic?_cases (s : Session) (call : Call) :
    (s.reply call).1.diagnostic? = (s.reply call).2.diagnostic? ∨
      ((s.reply call).1.diagnostic? = none ∧ (s.reply call).2 = s) := by
  cases call with
  | next =>
    left
    rw [reply, diagnostic?, s.next_status_eq]
    cases s.next.1 <;> rfl
  | halt fault =>
    left
    rw [reply, diagnostic?, s.halt_status fault]
    rfl
  | readDocument =>
    left
    rw [reply, diagnostic?, readDocument_eq]
    rcases s.readFrom_answer .blank with ⟨doc, hanswer, hstatus⟩ | ⟨d, hanswer, hstatus⟩
    · rw [hanswer, hstatus]
      rfl
    · rw [hanswer, hstatus]
      rfl
  | current =>
    left
    rw [reply, current]
    cases s.diagnostic? <;> rfl
  | status =>
    left
    rw [reply, diagnostic?]
    cases s.status <;> rfl
  | lastLine | lines | blockType | filesOpened => exact .inr ⟨rfl, rfl⟩

section Told

variable {s s' : Session}

theorem load_diagnostic? (disk : Disk) (path : String) :
    (Result.load (s.load disk path).1).diagnostic? = (s.load disk path).2.diagnostic? := by
  rw [diagnostic?]
  rcases s.load_answer disk path with ⟨hanswer, hstatus⟩ | ⟨d, hanswer, hstatus⟩
  · rw [hanswer, hstatus]
    rfl
  · rw [hanswer, hstatus]
    rfl

theorem raised?_of_running (hrun : s.diagnostic? = none) (call : Call) :
    s.raised? call = (s.reply call).2.diagnostic? := by
  unfold raised?
  rw [hrun]
  rcases s.reply_diagnostic?_cases call with he | ⟨he, hs⟩
  · exact he
  · rw [he, hs, hrun]

theorem raised?_of_halted {d : Diagnostic} (hs : s.diagnostic? = some d) (call : Call) :
    s.raised? call = none := by
  unfold raised?
  rw [hs]

/-- What is written is the text of the diagnostic that halts the session, if one does. -/
theorem Reports.sink_eq {written : String} (h : s.Reports s') (hrun : s.diagnostic? = none)
    (hsink : s.reporter.sink = .keeping written) :
    s'.reporter.sink = .keeping (written ++ transcript s'.diagnostic?.toList) := by
  cases hd : s'.diagnostic? with
  | none =>
    rw [h.reporter_eq hd, hsink]
    simp [transcript]
  | some d =>
    rw [(h.of_halts hrun hd).2, Reporter.sent, hsink]
    simp [transcript, Sink.write]

theorem load_sink_eq {written : String} (hsink : s.reporter.sink = .keeping written) (disk : Disk)
    (path : String) : (s.load disk path).2.reporter.sink =
      .keeping (written ++ transcript (s.load disk path).2.diagnostic?.toList) := by
  obtain ⟨t, hrun, hr, hreports⟩ := s.load_reports disk path
  rw [← hr] at hsink
  exact hreports.sink_eq hrun hsink

theorem reply_sink_eq {written : String} (hsink : s.reporter.sink = .keeping written)
    (call : Call) : (s.reply call).2.reporter.sink =
      .keeping (written ++ transcript (s.raised? call).toList) := by
  cases hrun : s.diagnostic? with
  | none =>
    rw [raised?_of_running hrun]
    exact (s.reply_reports call).sink_eq hrun hsink
  | some d =>
    rw [raised?_of_halted hrun, (s.reply_reports call).reporter_eq_of_halted hrun, hsink]
    simp [transcript]

end Told

namespace Clean

variable {s : Session}

theorem load (h : s.Clean) (disk : Disk) (path : String) : (s.load disk path).2.Clean := by
  obtain ⟨t, hrun, hr, hreports⟩ := s.load_reports disk path
  apply hreports.clean
  refine ⟨by rw [hr]; exact h.pending, ?_⟩
  intro d hd
  rw [hrun] at hd
  cases hd

theorem reply (h : s.Clean) (call : Call) : (s.reply call).2.Clean := (s.reply_reports call).clean h

theorem message_of_load (h : s.Clean) {disk : Disk} {path : String} {d : Diagnostic}
    (hd : (s.load disk path).2.diagnostic? = some d) : d.message = d.fault.message :=
  (h.load disk path).message d hd

theorem message_of_reply (h : s.Clean) {call : Call} {d : Diagnostic}
    (hd : (s.reply call).1.diagnostic? = some d) : d.message = d.fault.message := by
  rcases s.reply_diagnostic?_cases call with he | ⟨he, -⟩
  · exact (h.reply call).message d (he.symm.trans hd)
  · rw [he] at hd
    cases hd

end Clean

namespace Told

variable {s : Session} {told : List Diagnostic}

theorem clean (h : s.Told told) : s.Clean := by
  induction h with
  | new settings => exact ⟨rfl, fun d hd => by cases hd⟩
  | load disk path _ ih => exact ih.load disk path
  | call call _ ih => exact ih.reply call

theorem sink_eq (h : s.Told told) : s.reporter.sink = .keeping (transcript told) := by
  induction h with
  | new settings => rfl
  | @load s told disk path _ ih =>
    rw [load_diagnostic?, transcript_append]
    exact load_sink_eq ih disk path
  | call call _ ih =>
    rw [transcript_append]
    exact reply_sink_eq ih call

end Told

end Session

/-- A sink that keeps what is written to it holds the texts of the diagnostics that have halted the
session since it was new, each once and with a newline. The next load writes the text of its
diagnostic if it fails, and nothing otherwise. Another call writes the text of the diagnostic that it
answers with if it halts a session that was not halted, and nothing otherwise. Every diagnostic that
is answered has the message of its fault. -/
theorem reported_once {s : Session} {told : List Diagnostic} (h : s.Told told) :
    s.reporter.sink = .keeping (transcript told) ∧
    (∀ disk path,
      ((s.load disk path).1 = .ok () ∧ (s.load disk path).2.diagnostic? = none ∧
        s.Writes (s.load disk path).2 "") ∨
      ∃ d, (s.load disk path).1 = .error d ∧ (s.load disk path).2.diagnostic? = some d ∧
        d.message = d.fault.message ∧ s.Writes (s.load disk path).2 (d.text ++ "\n")) ∧
    ∀ call,
      (∀ d, (s.reply call).1.diagnostic? = some d → d.message = d.fault.message) ∧
      (s.diagnostic? = none → ∀ d, (s.reply call).2.diagnostic? = some d →
        (s.reply call).1.diagnostic? = some d ∧ s.Writes (s.reply call).2 (d.text ++ "\n")) ∧
      (s.diagnostic? ≠ none ∨ (s.reply call).2.diagnostic? = none →
        s.Writes (s.reply call).2 "") := by
  have hsink := h.sink_eq
  have hreply (call : Call) : s.Writes (s.reply call).2 (transcript (s.raised? call).toList) :=
    ⟨_, hsink, Session.reply_sink_eq hsink call⟩
  refine ⟨hsink, ?_, ?_⟩
  · intro disk path
    have hload : s.Writes (s.load disk path).2
        (transcript (s.load disk path).2.diagnostic?.toList) :=
      ⟨_, hsink, Session.load_sink_eq hsink disk path⟩
    rcases s.load_answer disk path with ⟨hanswer, hstatus⟩ | ⟨d, hanswer, hstatus⟩
    · have hrun : (s.load disk path).2.diagnostic? = none := by rw [Session.diagnostic?, hstatus]
      rw [hrun] at hload
      exact .inl ⟨hanswer, hrun, hload⟩
    · have hd := Session.diagnostic?_eq_some_iff.mpr hstatus
      rw [hd, Option.toList_some, transcript_singleton] at hload
      exact .inr ⟨d, hanswer, hd, h.clean.message_of_load hd, hload⟩
  · intro call
    refine ⟨fun d hd => h.clean.message_of_reply hd, ?_, ?_⟩
    · intro hrun d hd
      have hraised := Session.raised?_of_running hrun call
      have hwrites := hreply call
      rw [hraised, hd, Option.toList_some, transcript_singleton] at hwrites
      refine ⟨?_, hwrites⟩
      rw [Session.raised?, hrun] at hraised
      exact hraised.trans hd
    · intro hquiet
      have hwrites := hreply call
      have hraised : s.raised? call = none := by
        cases hrun : s.diagnostic? with
        | some d => exact Session.raised?_of_halted hrun call
        | none =>
          rw [Session.raised?_of_running hrun]
          exact hquiet.resolve_left fun hne => hne hrun
      rw [hraised] at hwrites
      exact hwrites

/-- A session that has failed to load one description, and has taken up another and failed to make a
document of it. -/
def twiceHalted : Session :=
  (((((Session.new {}).load brokenArm "robot.dd").2.reply .next).2.load motors "broken.dd").2.reply
    .readDocument).2

theorem reported_twiceHalted :
    twiceHalted.Told [brokenArmDiagnostic, unmatchedArm] ∧
      twiceHalted.reporter.sink = .keeping
        ("Error! arm.dd:2: name \"left hip\n    unclosed quote opened at column 6\n" ++
          "Error! broken.dd:3: end arm\n    'end arm' does not match open block 'motor'\n") ∧
      twiceHalted.Writes (twiceHalted.reply .current).2 "" := by
  have htold : twiceHalted.Told _ :=
    .call .readDocument (.load motors "broken.dd" (.call .next (.load brokenArm "robot.dd" (.new {}))))
  have hlist : [] ++ (Result.load ((Session.new {}).load brokenArm "robot.dd").1).diagnostic?.toList ++
      (((Session.new {}).load brokenArm "robot.dd").2.raised? .next).toList ++
      (Result.load ((((Session.new {}).load brokenArm "robot.dd").2.reply .next).2.load motors
        "broken.dd").1).diagnostic?.toList ++
      (((((Session.new {}).load brokenArm "robot.dd").2.reply .next).2.load motors
        "broken.dd").2.raised? .readDocument).toList = [brokenArmDiagnostic, unmatchedArm] := by
    decide +kernel
  have hmade : twiceHalted.Told [brokenArmDiagnostic, unmatchedArm] := hlist ▸ htold
  obtain ⟨hsink, -, hcalls⟩ := reported_once hmade
  obtain ⟨-, -, hquiet⟩ := hcalls .current
  have hhalted : twiceHalted.diagnostic? ≠ none := by decide +kernel
  have htexts : transcript [brokenArmDiagnostic, unmatchedArm] =
      "Error! arm.dd:2: name \"left hip\n    unclosed quote opened at column 6\n" ++
        "Error! broken.dd:3: end arm\n    'end arm' does not match open block 'motor'\n" := by
    decide +kernel
  rw [htexts] at hsink
  exact ⟨hmade, hsink, hquiet (.inl hhalted)⟩

end DeviceDescription
