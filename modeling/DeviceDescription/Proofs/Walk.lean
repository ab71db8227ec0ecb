import DeviceDescription.Document
import Mathlib.Tactic.Common

/-!
# What calls keep

A call of `next` goes over lines and leaves the session in the status that its signal stands for; it
neither changes the lines nor goes back. A walk is a row of such calls up to the first signal that
is the last one, and the making of a document is a walk with a fault at its end at most. So both
keep what each call of `next` keeps.
-/

namespace DeviceDescription

/-- The status of a session that has just given the signal. -/
def Signal.status : Signal → Status
  | .beginDevice _ => .beginDevice
  | .endDevice _ => .endDevice
  | .content _ => .ok
  | .endOfStream => .endOfStream
  | .error d => .error d

theorem Signal.status_eq_error_iff {signal : Signal} {d : Diagnostic} :
    signal.status = .error d ↔ signal = .error d := by
  cases signal <;> simp [status]

namespace Session

/-- The second session holds the same description, and stands at the same place or further on. -/
structure Onward (s s' : Session) : Prop where
  lines : s'.lines = s.lines
  filesOpened : s'.filesOpened = s.filesOpened
  cursor : s.cursor ≤ s'.cursor

namespace Onward

variable {s s' s'' : Session}

theorem refl (s : Session) : s.Onward s := ⟨rfl, rfl, Nat.le_refl _⟩

theorem trans (h : s.Onward s') (h' : s'.Onward s'') : s.Onward s'' where
  lines := h'.lines.trans h.lines
  filesOpened := h'.filesOpened.trans h.filesOpened
  cursor := Nat.le_trans h.cursor h'.cursor

end Onward

theorem diagnostic?_eq_some_iff {s : Session} {d : Diagnostic} :
    s.diagnostic? = some d ↔ s.status = .error d := by
  unfold diagnostic?
  cases s.status <;> simp

theorem diagnostic?_eq_none_iff {s : Session} :
    s.diagnostic? = none ↔ ∀ d, s.status ≠ .error d := by
  unfold diagnostic?
  cases s.status <;> simp

section Next

variable (s : Session) (line : Line)

theorem cursor_le_length : s.cursor ≤ s.lines.length := by
  unfold cursor lines
  rw [List.length_append, List.length_reverse]
  exact Nat.le_add_right _ _

theorem fail_onward (fault : Fault) (site : Option Line) : s.Onward (s.fail fault site).2 :=
  ⟨rfl, rfl, Nat.le_refl _⟩

theorem failSignal_onward (fault : Fault) : s.Onward (s.failSignal fault line).2 :=
  s.fail_onward fault (some line)

theorem halt_onward (fault : Fault) : s.Onward (s.halt fault).2 := by
  unfold halt
  cases s.diagnostic? with
  | some d => exact .refl s
  | none => exact s.fail_onward fault s.lastLine?

/-- A line is delivered with a new status and perhaps another open block, or fails. -/
theorem deliver_cases (tokens : List String) :
    (∃ signal block, signal.isLast = false ∧
        s.deliver line tokens = (signal, { s with blockType := block, status := signal.status })) ∨
      ∃ fault, s.deliver line tokens = s.failSignal fault line := by
  unfold deliver
  split
  · split
    · exact .inr ⟨_, rfl⟩
    · exact .inr ⟨_, rfl⟩
    · exact .inl ⟨.beginDevice _, _, rfl, rfl⟩
  · split
    · split
      · exact .inr ⟨_, rfl⟩
      · split
        · exact .inl ⟨.endDevice _, _, rfl, rfl⟩
        · exact .inr ⟨_, rfl⟩
    · exact .inl ⟨.content tokens, s.blockType, rfl, rfl⟩

theorem deliver_onward (tokens : List String) : s.Onward (s.deliver line tokens).2 := by
  rcases s.deliver_cases line tokens with ⟨signal, block, -, h⟩ | ⟨fault, h⟩
  · rw [h]
    exact ⟨rfl, rfl, Nat.le_refl _⟩
  · rw [h]
    exact s.failSignal_onward line fault

theorem deliver_status_eq (tokens : List String) :
    (s.deliver line tokens).2.status = (s.deliver line tokens).1.status := by
  rcases s.deliver_cases line tokens with ⟨signal, block, -, h⟩ | ⟨fault, h⟩
  · rw [h]
  · rw [h]
    rfl

/-- What `next` answers once the session stands before the line that it answers for. -/
inductive Answers (s : Session) : Signal × Session → Prop
  | halted {d : Diagnostic} : s.diagnostic? = some d → Answers s (.error d, s)
  | ended : s.ahead = [] → Answers s (.endOfStream, { s with ahead := [], status := .endOfStream })
  | failed (fault : Fault) (line : Line) : Answers s (s.failSignal fault line)
  | delivered (line : Line) (tokens : List String) : Answers s (s.deliver line tokens)

theorem Answers.onward {s : Session} {answer : Signal × Session} (h : s.Answers answer) :
    s.Onward answer.2 := by
  cases h with
  | halted => exact .refl s
  | ended hs =>
    refine ⟨?_, rfl, Nat.le_refl _⟩
    rw [lines, lines, hs]
  | failed fault line => exact s.failSignal_onward line fault
  | delivered line tokens => exact s.deliver_onward line tokens

theorem Answers.status_eq {s : Session} {answer : Signal × Session} (h : s.Answers answer) :
    answer.2.status = answer.1.status := by
  cases h with
  | halted hs => exact diagnostic?_eq_some_iff.mp hs
  | ended => rfl
  | failed => rfl
  | delivered line tokens => exact s.deliver_status_eq line tokens

/-- The lines that are not delivered are passed, and nothing else is changed on the way. -/
theorem advance_answers {lines : List Line} (h : s.ahead = lines) :
    ∃ t, s.Onward t ∧ t.blockType = s.blockType ∧ t.Answers (s.advance lines) := by
  induction lines generalizing s with
  | nil => exact ⟨s, .refl s, rfl, .ended h⟩
  | cons line rest ih =>
    have hpass : s.Onward { s with passed := line :: s.passed, ahead := rest } := by
      refine ⟨?_, rfl, Nat.le_succ _⟩
      rw [Session.lines, Session.lines, h, List.reverse_cons, List.append_assoc,
        List.singleton_append]
    unfold advance
    split
    · exact ⟨_, hpass, rfl, .failed _ line⟩
    · dsimp only
      split
      · exact ⟨_, hpass, rfl, .delivered line _⟩
      · obtain ⟨t, ht, hblock, hanswers⟩ :=
          ih { s with passed := line :: s.passed, ahead := rest } rfl
        exact ⟨t, hpass.trans ht, hblock, hanswers⟩

theorem next_answers : ∃ t, s.Onward t ∧ t.blockType = s.blockType ∧ t.Answers s.next := by
  unfold next
  cases hs : s.diagnostic? with
  | some d => exact ⟨s, .refl s, rfl, .halted hs⟩
  | none => exact s.advance_answers rfl

theorem next_onward : s.Onward s.next.2 := by
  obtain ⟨t, ht, -, hanswers⟩ := s.next_answers
  exact ht.trans hanswers.onward

theorem next_status_eq : s.next.2.status = s.next.1.status := by
  obtain ⟨t, -, -, hanswers⟩ := s.next_answers
  exact hanswers.status_eq

end Next

section Walk

theorem walk_of_isLast {s : Session} (h : s.next.1.isLast = true) :
    s.walk = ([(s.next.1, s.next.2.lastLine?)], s.next.2) := by
  rw [walk]
  exact dif_pos h

theorem walk_of_not_isLast {s : Session} (h : s.next.1.isLast = false) :
    s.walk = ((s.next.1, s.next.2.lastLine?) :: s.next.2.walk.1, s.next.2.walk.2) := by
  rw [walk]
  exact dif_neg (by simp [h])

/-- Induction along a walk, from its last call to the first. -/
theorem walk_induction {motive : Session → Prop}
    (last : ∀ s : Session, s.next.1.isLast = true → motive s)
    (more : ∀ s : Session, s.next.1.isLast = false → motive s.next.2 → motive s) (s : Session) :
    motive s := by
  induction hlength : s.ahead.length using Nat.strongRecOn generalizing s with
  | _ n ih =>
    cases hlast : s.next.1.isLast with
    | true => exact last s hlast
    | false =>
      have hless : s.next.2.ahead.length < n := hlength ▸ s.next_ahead hlast
      exact more s hlast (ih _ hless s.next.2 rfl)

theorem readDocument_eq_walk_or_halt (s : Session) :
    s.readDocument.2 = s.walk.2 ∨
      ∃ type, s.readDocument.2 = (s.walk.2.halt (.unterminatedBlock type)).2 := by
  unfold readDocument
  dsimp only
  split
  · exact .inl rfl
  · split
    · exact .inl rfl
    · exact .inr ⟨_, rfl⟩

variable {P : Session → Prop} (hnext : ∀ s : Session, P s → P s.next.2)
include hnext

theorem walk_of_next {s : Session} (h : P s) : P s.walk.2 := by
  induction s using walk_induction with
  | last s hlast =>
    rw [walk_of_isLast hlast]
    exact hnext s h
  | more s hlast ih =>
    rw [walk_of_not_isLast hlast]
    exact ih (hnext s h)

/-- What each call of `next` keeps, and each halt for a block that is not closed, is kept when a
document is made. -/
theorem readDocument_of_next
    (hhalt : ∀ (s : Session) (type : String), P s → P (s.halt (.unterminatedBlock type)).2)
    {s : Session} (h : P s) : P s.readDocument.2 := by
  have hwalk := walk_of_next hnext h
  rcases s.readDocument_eq_walk_or_halt with he | ⟨type, he⟩
  · rw [he]
    exact hwalk
  · rw [he]
    exact hhalt _ type hwalk

end Walk

section Document

variable (s : Session)

theorem readDocument_onward : s.Onward s.readDocument.2 :=
  readDocument_of_next (fun t h => h.trans t.next_onward) (fun t _ h => h.trans (t.halt_onward _))
    (.refl s)

/-- A walk ends at the end of the lines, and then its signals are gathered, or in a fault. -/
theorem walk_gather (s : Session) :
    (s.walk.2.status = .endOfStream ∧
        ∀ draft, ∃ final, Document.gather draft s.walk.1 = .ok final) ∨
      ∃ d, s.walk.2.status = .error d ∧ ∀ draft, Document.gather draft s.walk.1 = .error d := by
  induction s using walk_induction with
  | last s hlast =>
    have hstatus := s.next_status_eq
    rw [walk_of_isLast hlast]
    cases hsignal : s.next.1 with
    | endOfStream =>
      rw [hsignal] at hstatus
      exact .inl ⟨hstatus, fun draft => ⟨draft, rfl⟩⟩
    | error d =>
      rw [hsignal] at hstatus
      exact .inr ⟨d, hstatus, fun draft => rfl⟩
    | beginDevice | endDevice | content =>
      rw [hsignal] at hlast
      cases hlast
  | more s hlast ih =>
    have hgather (draft : Document.Draft) : ∃ draft',
        Document.gather draft s.walk.1 = Document.gather draft' s.next.2.walk.1 := by
      rw [walk_of_not_isLast hlast]
      cases hsignal : s.next.1 with
      | beginDevice | endDevice | content => exact ⟨_, rfl⟩
      | endOfStream | error =>
        rw [hsignal] at hlast
        cases hlast
    have hstatus : s.walk.2.status = s.next.2.walk.2.status := by
      rw [walk_of_not_isLast hlast]
    rw [hstatus]
    rcases ih with ⟨hend, hok⟩ | ⟨d, hend, herror⟩
    · refine .inl ⟨hend, ?_⟩
      intro draft
      obtain ⟨draft', he⟩ := hgather draft
      rw [he]
      exact hok draft'
    · refine .inr ⟨d, hend, ?_⟩
      intro draft
      obtain ⟨draft', he⟩ := hgather draft
      rw [he]
      exact herror draft'

end Document

end Session

end DeviceDescription
