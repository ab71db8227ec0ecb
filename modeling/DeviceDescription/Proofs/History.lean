import DeviceDescription.Proofs.Collect
import DeviceDescription.Proofs.Walk

/-!
# Sessions under any calls

A consumer may load descriptions into a session and make any other calls of it, in any order. The
session is in the error state exactly when a load, a `next`, a `halt` or the making of a document
has brought it there, whose answer was the diagnostic. From then on each call but a load answers
with that diagnostic, or with what the session holds, and leaves the session as it is.
-/

namespace DeviceDescription

/-- A call of a session other than a load. -/
inductive Call where
  | next
  | current
  | lastLine
  | halt (fault : Fault)
  | readDocument
  | status
  | lines
  | blockType
  | filesOpened
  deriving DecidableEq

inductive Reply where
  | signal (signal : Signal)
  | tokens (answer : Except Diagnostic (Option (List String)))
  | line (line : Option Line)
  | diagnostic (d : Diagnostic)
  | document (answer : Except Diagnostic Document)
  | status (status : Status)
  | lines (lines : List Line)
  | blockType (type : Option String)
  | filesOpened (number : Nat)
  deriving DecidableEq

namespace Session

def reply (s : Session) : Call → Reply × Session
  | .next => (.signal s.next.1, s.next.2)
  | .current => (.tokens s.current, s)
  | .lastLine => (.line s.lastLine?, s)
  | .halt fault => (.diagnostic (s.halt fault).1, (s.halt fault).2)
  | .readDocument => (.document s.readDocument.1, s.readDocument.2)
  | .status => (.status s.status, s)
  | .lines => (.lines s.lines, s)
  | .blockType => (.blockType s.blockType, s)
  | .filesOpened => (.filesOpened s.filesOpened, s)

/-- The replies to calls made one after the other, and the session after them. -/
def replies (s : Session) : List Call → List Reply × Session
  | [] => ([], s)
  | call :: calls =>
    let (reply, s) := s.reply call
    let (more, s) := s.replies calls
    (reply :: more, s)

/-- What each of the calls keeps is kept by all of them. -/
theorem replies_of_reply {P : Session → Prop} {calls : List Call}
    (hreply : ∀ s : Session, ∀ call ∈ calls, P s → P (s.reply call).2) {s : Session} (h : P s) :
    P (s.replies calls).2 := by
  induction calls generalizing s with
  | nil => exact h
  | cons call calls ih =>
    have hfirst : P (s.reply call).2 := hreply s call List.mem_cons_self h
    exact ih (fun t c hc => hreply t c (List.mem_cons_of_mem call hc)) hfirst

/-- The sessions that a new one becomes by loads and other calls. -/
inductive Reachable : Session → Prop
  | new (settings : Settings) (sink : Sink) : Reachable (withSink settings sink)
  | load {s} (disk : Disk) (path : String) : Reachable s → Reachable (Session.load s disk path).2
  | call {s} (call : Call) : Reachable s → Reachable (Session.reply s call).2

/-- A load or a call of the first session fails with the diagnostic and leaves the second. -/
inductive Fails (s : Session) (d : Diagnostic) : Session → Prop
  | load {disk path s'} : s.load disk path = (.error d, s') → Fails s d s'
  | next {s'} : s.next = (.error d, s') → Fails s d s'
  | halt {fault s'} : s.halt fault = (d, s') → Fails s d s'
  | readDocument {s'} : s.readDocument = (.error d, s') → Fails s d s'

/-- What a session answers that the diagnostic has halted. -/
def haltedReply (s : Session) (d : Diagnostic) : Call → Reply
  | .next => .signal (.error d)
  | .current => .tokens (.error d)
  | .lastLine => .line s.lastLine?
  | .halt _ => .diagnostic d
  | .readDocument => .document (.error d)
  | .status => .status (.error d)
  | .lines => .lines s.lines
  | .blockType => .blockType s.blockType
  | .filesOpened => .filesOpened s.filesOpened

/-! ### The status after an operation -/

section Status

variable {s : Session} {d : Diagnostic}

theorem fail_status (s : Session) (fault : Fault) (site : Option Line) :
    (s.fail fault site).2.status = .error (s.fail fault site).1 := rfl

theorem next_status : s.next.2.status = .error d ↔ s.next.1 = .error d := by
  rw [s.next_status_eq, Signal.status_eq_error_iff]

theorem halt_status (s : Session) (fault : Fault) :
    (s.halt fault).2.status = .error (s.halt fault).1 := by
  unfold halt
  cases hd : s.diagnostic? with
  | some d => exact diagnostic?_eq_some_iff.mp hd
  | none => exact s.fail_status fault s.lastLine?

theorem load_answer (s : Session) (disk : Disk) (path : String) :
    ((s.load disk path).1 = .ok () ∧ (s.load disk path).2.status = .ok) ∨
      ∃ d, (s.load disk path).1 = .error d ∧ (s.load disk path).2.status = .error d := by
  cases he : (expand disk s.settings.depthLimit.toNat path).stop with
  | none =>
    rw [s.load_of_complete disk path he]
    exact .inl ⟨rfl, rfl⟩
  | some stop =>
    rw [s.load_of_stopped disk path he]
    exact .inr ⟨_, rfl, s.fail_status stop.fault stop.site⟩

theorem load_status (disk : Disk) (path : String) :
    (s.load disk path).2.status = .error d ↔ (s.load disk path).1 = .error d := by
  rcases s.load_answer disk path with ⟨hanswer, hstatus⟩ | ⟨d', hanswer, hstatus⟩
  · rw [hanswer, hstatus]
    simp
  · rw [hanswer, hstatus, Status.error.injEq, Except.error.injEq]

/-- The making of a document ends at the end of the lines or in a fault. -/
theorem readFrom_answer (s : Session) (draft : Document.Draft) :
    (∃ doc, (s.readFrom draft).1 = .ok doc ∧ (s.readFrom draft).2.status = .endOfStream) ∨
      ∃ d, (s.readFrom draft).1 = .error d ∧ (s.readFrom draft).2.status = .error d := by
  unfold readFrom
  dsimp only
  rcases s.walk_gather with ⟨hend, hok⟩ | ⟨d, hend, herror⟩
  · obtain ⟨final, hfinal⟩ := hok draft
    rw [hfinal]
    dsimp only
    cases final.block with
    | none => exact .inl ⟨_, rfl, hend⟩
    | some device => exact .inr ⟨_, rfl, halt_status _ _⟩
  · rw [herror draft]
    exact .inr ⟨d, rfl, hend⟩

theorem readFrom_status (draft : Document.Draft) :
    (s.readFrom draft).2.status = .error d ↔ (s.readFrom draft).1 = .error d := by
  rcases s.readFrom_answer draft with ⟨doc, hanswer, hstatus⟩ | ⟨d', hanswer, hstatus⟩
  · rw [hanswer, hstatus]
    simp
  · rw [hanswer, hstatus, Status.error.injEq, Except.error.injEq]

theorem Fails.status_eq {s' : Session} (h : s.Fails d s') : s'.status = .error d := by
  cases h with
  | @load disk path _ h =>
    have hstatus := @load_status s d disk path
    rw [h] at hstatus
    exact hstatus.mpr rfl
  | next h =>
    have hstatus := @next_status s d
    rw [h] at hstatus
    exact hstatus.mpr rfl
  | @halt fault _ h =>
    have hstatus := s.halt_status fault
    rw [h] at hstatus
    exact hstatus
  | readDocument h =>
    have hstatus := @readFrom_status s d .blank
    rw [← readDocument_eq, h] at hstatus
    exact hstatus.mpr rfl

end Status

/-! ### The error state -/

section Halted

variable {s : Session} {d : Diagnostic}

theorem reply_of_error (h : s.status = .error d) (call : Call) :
    s.reply call = (s.haltedReply d call, s) := by
  have hd : s.diagnostic? = some d := diagnostic?_eq_some_iff.mpr h
  cases call with
  | next => rw [reply, next_of_diagnostic hd]; rfl
  | current => rw [reply, current, hd]; rfl
  | halt fault => rw [reply, halt, hd]; rfl
  | readDocument => rw [reply, readDocument_of_diagnostic hd]; rfl
  | status => rw [reply, h]; rfl
  | lastLine | lines | blockType | filesOpened => rfl

theorem replies_of_error (h : s.status = .error d) (calls : List Call) :
    s.replies calls = (calls.map (s.haltedReply d), s) := by
  induction calls with
  | nil => rfl
  | cons call calls ih =>
    rw [replies, reply_of_error h]
    dsimp only
    rw [ih]
    rfl

theorem Reachable.exists_fails (h : s.Reachable) (hs : s.status = .error d) :
    ∃ s₀ : Session, s₀.Reachable ∧ s₀.Fails d s := by
  induction h with
  | new => cases hs
  | @load s disk path hr _ => exact ⟨s, hr, .load (Prod.ext (load_status disk path |>.mp hs) rfl)⟩
  | @call s call hr ih =>
    cases call with
    | next => exact ⟨s, hr, .next (Prod.ext (next_status.mp hs) rfl)⟩
    | halt fault =>
      have hd : (s.halt fault).1 = d := Status.error.inj ((s.halt_status fault).symm.trans hs)
      exact ⟨s, hr, .halt (Prod.ext hd rfl)⟩
    | readDocument =>
      have hd : s.readDocument.1 = .error d := (readFrom_status .blank).mp hs
      exact ⟨s, hr, .readDocument (Prod.ext hd rfl)⟩
    | current | lastLine | status | lines | blockType | filesOpened => exact ih hs

end Halted

end Session

/-- A session is in the error state exactly if an operation that failed has left it so. Then it
answers any further calls with the same diagnostic and stays as it is, what it has written to its
sink included; a load of a description that has an expansion takes it out of that state. -/
theorem halted_until_load {s : Session} (h : s.Reachable) :
    (∀ d, s.status = .error d ↔ ∃ s₀ : Session, s₀.Reachable ∧ s₀.Fails d s) ∧
    ∀ d, s.status = .error d →
      (∀ calls, s.replies calls = (calls.map (s.haltedReply d), s)) ∧
      ∀ disk path lines, Disk.Expands disk s.settings.depthLimit.toNat path lines →
        (s.load disk path).1 = .ok () ∧ (s.load disk path).2.status = .ok := by
  refine ⟨?_, ?_⟩
  · intro d
    refine ⟨fun hs => h.exists_fails hs, ?_⟩
    rintro ⟨s₀, -, hfails⟩
    exact hfails.status_eq
  · intro d hs
    refine ⟨Session.replies_of_error hs, ?_⟩
    intro disk path lines hexpands
    rw [s.load_of_complete disk path (by rw [hexpands.expand_eq])]
    exact ⟨rfl, rfl⟩

/-- An arm that opens a block inside another one. -/
def nestedArm : Disk := .ofTexts [("arm.dd", "begin motor\nbegin arm\nend arm\n")]

def pastNested : Session := ((Session.new {}).load nestedArm "arm.dd").2.next.2.next.2

theorem pastNested_reachable : pastNested.Reachable :=
  .call .next (.call .next (.load nestedArm "arm.dd" (.new {} _)))

theorem replies_pastNested :
    ∃ d, d.fault = .nestedBlock "motor" "arm" ∧ pastNested.status = .error d ∧
      pastNested.replies [.next, .halt (.unterminatedBlock "arm"), .readDocument, .blockType, .current] =
        ([.signal (.error d), .diagnostic d, .document (.error d), .blockType (some "motor"),
          .tokens (.error d)], pastNested) := by
  obtain ⟨-, hhalted⟩ := halted_until_load pastNested_reachable
  have hstatus : pastNested.status = .error ⟨.nestedBlock "motor" "arm",
      some ⟨"arm.dd", 2, "begin arm"⟩, "cannot begin 'arm' while 'motor' is still open"⟩ := by
    decide +kernel
  obtain ⟨hreplies, -⟩ := hhalted _ hstatus
  have hblock : pastNested.blockType = some "motor" := by decide +kernel
  refine ⟨_, rfl, hstatus, ?_⟩
  rw [hreplies]
  simp only [List.map_cons, List.map_nil, Session.haltedReply, hblock]

end DeviceDescription
