import DeviceDescription.Proofs.History

/-!
# Signals since the last load

Whatever is called of a session and in whatever order, the begin and end signals that it has given
since its last load alternate, each end of the type begun before it, and the block that is open is
the one that the last of them has begun. A session does not go back or change its lines before the
next load, and its status is that of the last operation that sets one.
-/

namespace DeviceDescription

/-- Whether the signal is that of a block that begins or ends. -/
def Signal.isBlock : Signal → Bool
  | .beginDevice _ | .endDevice _ => true
  | .content _ | .endOfStream | .error _ => false

/-- Begin and end signals by turns, a begin first, and each end of the type begun before it. -/
inductive Alternating : List Signal → Prop
  | nil : Alternating []
  | opened (type : String) : Alternating [.beginDevice type]
  | block {type rest} : Alternating rest →
      Alternating (.beginDevice type :: .endDevice type :: rest)

/-- What a load, a call of `next`, a halt or the making of a document has answered. -/
inductive Result where
  | load (answer : Except Diagnostic Unit)
  | next (signal : Signal)
  | halt (d : Diagnostic)
  | document (answer : Except Diagnostic Document)

/-- The diagnostic answered, if the operation has failed. -/
def Result.diagnostic? : Result → Option Diagnostic
  | .load (.error d) | .next (.error d) | .halt d | .document (.error d) => some d
  | .load (.ok ()) | .next _ | .document (.ok _) => none

def Result.status : Result → Status
  | .load (.ok ()) => .ok
  | .next signal => signal.status
  | .document (.ok _) => .endOfStream
  | .load (.error d) | .halt d | .document (.error d) => .error d

/-- The result, if the reply is to a call that sets the status. -/
def Reply.result? : Reply → Option Result
  | .signal given => some (.next given)
  | .diagnostic d => some (.halt d)
  | .document answer => some (.document answer)
  | .tokens _ | .line _ | .status _ | .lines _ | .blockType _ | .filesOpened _ => none

namespace Session

/-- The signals given in the course of a call. -/
def signals (s : Session) : Call → List Signal
  | .next => [s.next.1]
  | .readDocument => s.walk.1.map Prod.fst
  | .current | .lastLine | .halt _ | .status | .lines | .blockType | .filesOpened => []

/-- A session that has been made by loads and other calls, with the signals it has given since the
last load and the last result. -/
inductive Since : Session → List Signal → Option Result → Prop
  | new (settings : Settings) (sink : Sink) : Since (withSink settings sink) [] none
  | load {s given last} (disk : Disk) (path : String) : Since s given last →
      Since (s.load disk path).2 [] (some (.load (s.load disk path).1))
  | call {s given last} (call : Call) : Since s given last →
      Since (s.reply call).2 (given ++ s.signals call) ((s.reply call).1.result?.or last)

end Session

/-! ### Blocks -/

/-- The signal can be given when the first block is open, and leaves the second one open. -/
inductive Signal.Turns : Option String → Signal → Option String → Prop
  | beginDevice {type} : Turns none (.beginDevice type) (some type)
  | endDevice {type} : Turns (some type) (.endDevice type) none
  | other {block signal} : signal.isBlock = false → Turns block signal block

/-- The signals can be given one after the other, from the first block to the second one. -/
inductive TurnsAll : Option String → List Signal → Option String → Prop
  | nil {block} : TurnsAll block [] block
  | cons {block signal next rest last} : Signal.Turns block signal next → TurnsAll next rest last →
      TurnsAll block (signal :: rest) last

namespace TurnsAll

variable {block next last : Option String} {given more : List Signal}

theorem append (h : TurnsAll block given next) (h' : TurnsAll next more last) :
    TurnsAll block (given ++ more) last := by
  induction h with
  | nil => exact h'
  | cons hturn _ ih => exact .cons hturn (ih h')

/-- An open block stands for its begin signal, which is still to be matched. -/
theorem alternating (h : TurnsAll block given last) :
    Alternating (block.toList.map Signal.beginDevice ++ given.filter Signal.isBlock) := by
  induction h with
  | @nil block =>
    cases block with
    | none => exact .nil
    | some type => exact .opened type
  | @cons block signal next rest last hturn _ ih =>
    cases hturn with
    | beginDevice => exact ih
    | endDevice => exact .block ih
    | other hblock =>
      rw [List.filter_cons_of_neg (by simp [hblock])]
      exact ih

theorem getLast?_eq_iff (h : TurnsAll block given last) (type : String) :
    (block.toList.map Signal.beginDevice ++ given.filter Signal.isBlock).getLast? =
      some (.beginDevice type) ↔ last = some type := by
  induction h with
  | @nil block =>
    cases block with
    | none => simp
    | some opened => simp
  | @cons block signal next rest last hturn _ ih =>
    cases hturn with
    | beginDevice => exact ih
    | @endDevice opened =>
      rw [← ih]
      change (Signal.beginDevice opened ::
        Signal.endDevice opened :: rest.filter Signal.isBlock).getLast? = _ ↔ _
      rw [List.getLast?_cons_cons, List.getLast?_cons]
      -- An end signal that is the last one leaves no block open.
      cases hlast : (rest.filter Signal.isBlock).getLast? with
      | none => simp [hlast]
      | some signal => simp [hlast]
    | other hblock =>
      rw [List.filter_cons_of_neg (by simp [hblock])]
      exact ih

end TurnsAll

namespace Session

section Turns

variable (s : Session)

theorem failSignal_turns (fault : Fault) (line : Line) :
    (s.failSignal fault line).1.Turns s.blockType (s.failSignal fault line).2.blockType :=
  .other rfl

theorem deliver_turns (line : Line) (tokens : List String) :
    (s.deliver line tokens).1.Turns s.blockType (s.deliver line tokens).2.blockType := by
  rcases follows_or_breach s.blockType tokens with ⟨next, hf⟩ | ⟨fault, hb⟩
  · generalize hblock : s.blockType = block at hf
    cases hf with
    | content hc =>
      rw [s.deliver_content line hc, ← hblock]
      exact .other rfl
    | @opening type extra =>
      rw [s.deliver_begin line type extra hblock]
      exact .beginDevice
    | @closing type extra =>
      rw [s.deliver_end line type extra hblock]
      exact .endDevice
  · rw [s.deliver_breach line hb]
    exact s.failSignal_turns fault line

theorem Answers.turns {s : Session} {answer : Signal × Session} (h : s.Answers answer) :
    answer.1.Turns s.blockType answer.2.blockType := by
  cases h with
  | halted | ended => exact .other rfl
  | failed fault line => exact s.failSignal_turns fault line
  | delivered line tokens => exact s.deliver_turns line tokens

theorem next_turns : s.next.1.Turns s.blockType s.next.2.blockType := by
  obtain ⟨t, -, hblock, hanswers⟩ := s.next_answers
  rw [← hblock]
  exact hanswers.turns

theorem walk_turns : TurnsAll s.blockType (s.walk.1.map Prod.fst) s.walk.2.blockType := by
  induction s using walk_induction with
  | last s hlast =>
    rw [walk_of_isLast hlast]
    exact .cons s.next_turns .nil
  | more s hlast ih =>
    rw [walk_of_not_isLast hlast]
    exact .cons s.next_turns ih

theorem halt_blockType (fault : Fault) : (s.halt fault).2.blockType = s.blockType := by
  unfold halt
  cases s.diagnostic? <;> rfl

theorem readDocument_blockType : s.readDocument.2.blockType = s.walk.2.blockType := by
  rcases s.readDocument_eq_walk_or_halt with he | ⟨type, he⟩
  · rw [he]
  · rw [he, halt_blockType]

theorem load_blockType (disk : Disk) (path : String) : (s.load disk path).2.blockType = none := by
  cases he : (expand disk s.settings.depthLimit.toNat path).stop with
  | none =>
    rw [s.load_of_complete disk path he]
    rfl
  | some stop =>
    rw [s.load_of_stopped disk path he]
    rfl

theorem reply_turns (call : Call) :
    TurnsAll s.blockType (s.signals call) (s.reply call).2.blockType := by
  cases call with
  | next => exact .cons s.next_turns .nil
  | readDocument =>
    have hturns := s.walk_turns
    rw [← readDocument_blockType] at hturns
    exact hturns
  | halt fault =>
    have hblock := s.halt_blockType fault
    rw [reply, hblock]
    exact .nil
  | current | lastLine | status | lines | blockType | filesOpened => exact .nil

end Turns

/-! ### Status -/

section Status

variable (s : Session)

theorem load_status_eq (disk : Disk) (path : String) :
    (s.load disk path).2.status = (Result.load (s.load disk path).1).status := by
  rcases s.load_answer disk path with ⟨hanswer, hstatus⟩ | ⟨d, hanswer, hstatus⟩
  · rw [hanswer, hstatus]
    rfl
  · rw [hanswer, hstatus]
    rfl

theorem reply_status (call : Call) :
    (s.reply call).2.status =
      ((s.reply call).1.result?.map Result.status).getD s.status := by
  cases call with
  | next => exact s.next_status_eq
  | halt fault => exact s.halt_status fault
  | readDocument =>
    rcases s.readFrom_answer .blank with ⟨doc, hanswer, hstatus⟩ | ⟨d, hanswer, hstatus⟩
    · rw [← readDocument_eq] at hanswer hstatus
      rw [reply, hanswer]
      exact hstatus
    · rw [← readDocument_eq] at hanswer hstatus
      rw [reply, hanswer]
      exact hstatus
  | current | lastLine | status | lines | blockType | filesOpened => rfl

theorem reply_onward (call : Call) : s.Onward (s.reply call).2 := by
  cases call with
  | next => exact s.next_onward
  | halt fault => exact s.halt_onward fault
  | readDocument => exact s.readDocument_onward
  | current | lastLine | status | lines | blockType | filesOpened => exact .refl s

theorem replies_onward (calls : List Call) : s.Onward (s.replies calls).2 := by
  apply replies_of_reply _ (Onward.refl s)
  intro t call _ ht
  exact ht.trans (t.reply_onward call)

end Status

namespace Since

variable {s : Session} {given : List Signal} {last : Option Result}

theorem turns (h : s.Since given last) : TurnsAll none given s.blockType := by
  induction h with
  | new => exact .nil
  | @load s given last disk path _ _ =>
    -- Whatever block was open before, the load closes it, so the signals start anew.
    rw [s.load_blockType disk path]
    exact .nil
  | @call s given last call _ ih => exact ih.append (s.reply_turns call)

theorem status_eq (h : s.Since given last) : s.status = (last.map Result.status).getD .ok := by
  induction h with
  | new => rfl
  | @load s given last disk path _ _ => exact s.load_status_eq disk path
  | @call s given last call _ ih =>
    rw [s.reply_status call, ih]
    cases (s.reply call).1.result? <;> rfl

end Since

theorem Reachable.exists_since {s : Session} (h : s.Reachable) :
    ∃ given last, s.Since given last := by
  induction h with
  | new settings sink => exact ⟨_, _, .new settings sink⟩
  | load disk path _ ih =>
    obtain ⟨given, last, hs⟩ := ih
    exact ⟨_, _, .load disk path hs⟩
  | call call _ ih =>
    obtain ⟨given, last, hs⟩ := ih
    exact ⟨_, _, .call call hs⟩

end Session

theorem Result.status_eq_error_iff {result : Result} {d : Diagnostic} :
    result.status = .error d ↔ result.diagnostic? = some d := by
  cases result with
  | load answer => cases answer <;> simp [status, diagnostic?]
  | next signal => cases signal <;> simp [status, Signal.status, diagnostic?]
  | halt d' => simp [status, diagnostic?]
  | document answer => cases answer <;> simp [status, diagnostic?]

/-- In every session, whatever it has been through, the begin and end signals since the last load
alternate, and the block that is open is the one begun by the last of them. Further calls without a
load keep the lines and the number of files and never go back. The status is that of the last
operation that sets it: the error state with a diagnostic exactly if that is what it has answered. -/
theorem alternating_since_load {s : Session} (h : s.Reachable) :
    (∃ given last, s.Since given last) ∧
    s.cursor ≤ s.lines.length ∧
    (∀ calls, s.Onward (s.replies calls).2) ∧
    ∀ given last, s.Since given last →
      Alternating (given.filter Signal.isBlock) ∧
      (∀ type, s.blockType = some type ↔
        (given.filter Signal.isBlock).getLast? = some (.beginDevice type)) ∧
      s.status = (last.map Result.status).getD .ok ∧
      ∀ d, s.status = .error d ↔ last.bind Result.diagnostic? = some d := by
  refine ⟨h.exists_since, s.cursor_le_length, s.replies_onward, ?_⟩
  intro given last hsince
  have hturns := hsince.turns
  have hstatus := hsince.status_eq
  refine ⟨hturns.alternating, ?_, hstatus, ?_⟩
  · intro type
    exact (hturns.getLast?_eq_iff type).symm
  · intro d
    rw [hstatus]
    cases last with
    | none => simp
    | some result => exact Result.status_eq_error_iff

/-- A halted session in which a block is open takes up another description, whose block it opens
in the making of a document and finds closed as an arm. -/
def reopened : Session := (pastNested.load motors "broken.dd").2.next.2.readDocument.2

theorem reopened_reachable : reopened.Reachable :=
  .call .readDocument (.call .next (.load motors "broken.dd" pastNested_reachable))

theorem alternating_reopened :
    ∃ last, reopened.Since [.content ["bus", "can0"], .beginDevice "motor", .error unmatchedArm] last ∧
      Alternating [.beginDevice "motor"] ∧ reopened.blockType = some "motor" ∧
      reopened.status = .error unmatchedArm ∧ last.bind Result.diagnostic? = some unmatchedArm := by
  obtain ⟨-, -, -, hkept⟩ := alternating_since_load reopened_reachable
  obtain ⟨_, _, hpast⟩ := pastNested_reachable.exists_since
  have hsince : reopened.Since _ _ := .call .readDocument (.call .next (.load motors "broken.dd" hpast))
  have hgiven : [] ++ (pastNested.load motors "broken.dd").2.signals .next ++
      (pastNested.load motors "broken.dd").2.next.2.signals .readDocument =
        [.content ["bus", "can0"], .beginDevice "motor", .error unmatchedArm] := by
    decide +kernel
  rw [hgiven] at hsince
  obtain ⟨halternating, hblock, -, hdiagnostic⟩ := hkept _ _ hsince
  have hstatus : reopened.status = .error unmatchedArm := by decide +kernel
  exact ⟨_, hsince, halternating, (hblock "motor").mpr rfl, hstatus, (hdiagnostic _).mp hstatus⟩

end DeviceDescription
