import DeviceDescription.Proofs.Delivery
import DeviceDescription.Proofs.History

/-!
# How reading ends

Each call of `next` that does not give the last signal takes the session past a line at least, so a
walk has no more calls than there are lines ahead, and one for its last signal. Making a document is
the same row of calls. A session that has come to the end of its lines rests there: its calls,
other than a load or a halt, change nothing, and a document made of it is empty.
-/

namespace DeviceDescription

namespace Session

/-! ### The calls of a walk -/

theorem cursor_add_ahead (s : Session) : s.cursor + s.ahead.length = s.lines.length := by
  rw [cursor, lines, List.length_append, List.length_reverse]

theorem cursor_lt_next {s : Session} (h : s.next.1.isLast = false) :
    s.cursor < s.next.2.cursor := by
  have hless := s.next_ahead h
  have hbefore := s.cursor_add_ahead
  have hafter := s.next.2.cursor_add_ahead
  rw [s.next_onward.lines] at hafter
  omega

theorem nexts_of_next (s : Session) (k : Nat) : s.next.2.nexts k = s.nexts (k + 1) := by
  induction k with
  | zero => rfl
  | succ k ih =>
    rw [nexts, ih]
    rfl

/-- What a walk records of the call after `k` others. -/
def stepAfter (s : Session) (k : Nat) : Signal × Option Line :=
  ((s.nexts k).next.1, (s.nexts (k + 1)).lastLine?)

/-- A walk is so many calls of `next`, of which only the last one gives a last signal. -/
structure Walks (s : Session) (calls : Nat) : Prop where
  walk_eq : s.walk = ((List.range calls).map s.stepAfter, s.nexts calls)
  goesOn : ∀ k, k + 1 < calls → (s.nexts k).next.1.isLast = false
  ends : ∃ k, calls = k + 1 ∧ (s.nexts k).next.1.isLast = true

theorem Walks.of_isLast {s : Session} (h : s.next.1.isLast = true) : s.Walks 1 where
  walk_eq := walk_of_isLast h
  goesOn k hk := by omega
  ends := ⟨0, rfl, h⟩

theorem Walks.of_not_isLast {s : Session} {calls : Nat} (h : s.next.1.isLast = false)
    (hwalks : s.next.2.Walks calls) : s.Walks (calls + 1) where
  walk_eq := by
    have hsteps : s.next.2.stepAfter = s.stepAfter ∘ Nat.succ := by
      funext k
      simp only [stepAfter, nexts_of_next, Function.comp_apply]
    rw [walk_of_not_isLast h, hwalks.walk_eq, hsteps, nexts_of_next, List.range_succ_eq_map,
      List.map_cons, List.map_map]
    rfl
  goesOn k hk := by
    cases k with
    | zero => exact h
    | succ k =>
      rw [← nexts_of_next]
      exact hwalks.goesOn k (by omega)
  ends := by
    obtain ⟨k, rfl, hlast⟩ := hwalks.ends
    refine ⟨k + 1, rfl, ?_⟩
    rw [← nexts_of_next]
    exact hlast

theorem exists_walks (s : Session) : ∃ calls ≤ s.ahead.length + 1, s.Walks calls := by
  induction s using walk_induction with
  | last s hlast => exact ⟨1, by omega, .of_isLast hlast⟩
  | more s hlast ih =>
    obtain ⟨calls, hle, hwalks⟩ := ih
    have hless := s.next_ahead hlast
    exact ⟨calls + 1, by omega, .of_not_isLast hlast hwalks⟩

/-- The document of what has been gathered up to here, or why there is none. -/
def settle (s : Session) : Except Diagnostic Document.Draft → Except Diagnostic Document × Session
  | .error d => (.error d, s)
  | .ok draft =>
    match draft.block with
    | none => (.ok draft.document, s)
    | some device =>
      (.error (s.halt (.unterminatedBlock device.type)).1,
        (s.halt (.unterminatedBlock device.type)).2)

/-- A document is made of the signals of a walk, and without another call. -/
theorem Walks.readDocument_eq {s : Session} {calls : Nat} (h : s.Walks calls) :
    s.readDocument =
      (s.nexts calls).settle (Document.gather .blank ((List.range calls).map s.stepAfter)) := by
  rw [readDocument, h.walk_eq]
  rfl

/-! ### The end of the lines -/

/-- The session has come to the end of its lines. -/
structure Spent (s : Session) : Prop where
  ahead_eq : s.ahead = []
  status_eq : s.status = .endOfStream

namespace Spent

variable {s : Session}

theorem next_eq (h : s.Spent) : s.next = (.endOfStream, s) := by
  obtain ⟨settings, passed, ahead, filesOpened, blockType, status, reporter⟩ := s
  obtain ⟨rfl, rfl⟩ := h
  rfl

theorem readDocument_eq (h : s.Spent) : s.readDocument = (.ok .empty, s) :=
  readFrom_of_endOfStream h.next_eq rfl

theorem reply_eq (h : s.Spent) {call : Call} (hcall : ∀ fault, call ≠ .halt fault) :
    (s.reply call).2 = s := by
  cases call with
  | next => rw [reply, h.next_eq]
  | readDocument => rw [reply, h.readDocument_eq]
  | halt fault => exact absurd rfl (hcall fault)
  | current | lastLine | status | lines | blockType | filesOpened => rfl

theorem replies_eq (h : s.Spent) {calls : List Call} (hcalls : ∀ fault, .halt fault ∉ calls) :
    (s.replies calls).2 = s := by
  apply replies_of_reply (P := (· = s)) _ rfl
  rintro t call hmem rfl
  apply h.reply_eq
  rintro fault rfl
  exact hcalls fault hmem

end Spent

theorem spent_of_next {s : Session} (h : s.next.1 = .endOfStream) : s.next.2.Spent := by
  have hstatus : s.next.2.status = .endOfStream := by rw [next_status_eq, h, Signal.status]
  obtain ⟨t, -, -, hanswers⟩ := s.next_answers
  generalize s.next = answer at h hstatus hanswers
  refine ⟨?_, hstatus⟩
  cases hanswers with
  | ended => rfl
  | halted => cases h
  | failed => cases h
  | delivered line tokens =>
    rcases t.deliver_cases line tokens with ⟨signal, block, hlast, he⟩ | ⟨fault, he⟩
    · rw [he] at h
      rw [show signal = .endOfStream from h] at hlast
      cases hlast
    · rw [he] at h
      cases h

theorem spent_of_walk {s : Session} (h : s.walk.2.status = .endOfStream) : s.walk.2.Spent := by
  induction s using walk_induction with
  | last s hlast =>
    rw [walk_of_isLast hlast] at h ⊢
    apply spent_of_next
    have hstatus := s.next_status_eq
    rw [h] at hstatus
    cases hsignal : s.next.1 with
    | endOfStream => rfl
    | beginDevice | endDevice | content | error =>
      rw [hsignal] at hstatus
      cases hstatus
  | more s hlast ih =>
    rw [walk_of_not_isLast hlast] at h ⊢
    exact ih h

/-- A session that a document has been made of is at the end of its lines. -/
theorem spent_of_readDocument {s : Session} {doc : Document} (h : s.readDocument.1 = .ok doc) :
    s.readDocument.2.Spent := by
  rcases s.readFrom_answer .blank with ⟨-, -, hstatus⟩ | ⟨d, hanswer, -⟩
  · rw [← Session.readDocument_eq] at hstatus
    rcases s.readDocument_eq_walk_or_halt with he | ⟨type, he⟩
    · rw [he] at hstatus ⊢
      exact spent_of_walk hstatus
    · rw [he, halt_status] at hstatus
      cases hstatus
  · rw [Session.readDocument_eq, hanswer] at h
    cases h

end Session

open Session in
/-- A walk is a row of calls of `next`, at most one more than there are lines from the cursor on,
and a document is made in the same calls. All of them but the last move the cursor. At the end of
the lines the session rests, whatever is called but a load or a halt. A document made once more is
empty, or fails as it did before. -/
theorem reading_ends (s : Session) :
    (∃ calls ≤ s.lines.length - s.cursor + 1, s.Walks calls ∧
      s.readDocument =
        (s.nexts calls).settle (Document.gather .blank ((List.range calls).map s.stepAfter))) ∧
    (s.next.1.isLast = false → s.cursor < s.next.2.cursor) ∧
    (s.next.1 = .endOfStream → ∀ calls, (∀ fault, Call.halt fault ∉ calls) →
      (s.next.2.replies calls).2 = s.next.2 ∧
        (s.next.2.replies calls).2.next = (.endOfStream, s.next.2)) ∧
    (∀ doc, s.readDocument.1 = .ok doc →
      s.readDocument.2.readDocument = (.ok .empty, s.readDocument.2)) ∧
    ∀ d, s.readDocument.1 = .error d →
      s.readDocument.2.readDocument = (.error d, s.readDocument.2) := by
  refine ⟨?_, cursor_lt_next, ?_, ?_, ?_⟩
  · obtain ⟨calls, hle, hwalks⟩ := s.exists_walks
    have hlength := s.cursor_add_ahead
    exact ⟨calls, by omega, hwalks, hwalks.readDocument_eq⟩
  · intro hend calls hcalls
    have hspent := spent_of_next hend
    rw [hspent.replies_eq hcalls]
    exact ⟨rfl, hspent.next_eq⟩
  · intro doc hdoc
    exact (spent_of_readDocument hdoc).readDocument_eq
  · intro d hd
    have hstatus : s.readDocument.2.status = .error d := (readFrom_status .blank).mpr hd
    exact readDocument_of_diagnostic (diagnostic?_eq_some_iff.mpr hstatus)

/-- Inside the knee's block, with an include line that is not shown ahead; after its last line; and
in a description with a block that does not match. -/
theorem reading_ends_motors :
    (∃ calls ≤ 5, (kneeLoaded.nexts 2).Walks calls) ∧
      (kneeLoaded.nexts 2).cursor < (kneeLoaded.nexts 3).cursor ∧
      ((kneeLoaded.nexts 6).replies [.readDocument, .next, .current]).2.next =
        (.endOfStream, kneeLoaded.nexts 6) ∧
      kneeLoaded.readDocument.2.readDocument = (.ok .empty, kneeLoaded.readDocument.2) ∧
      brokenLoaded.readDocument.2.readDocument =
        (.error unmatchedArm, brokenLoaded.readDocument.2) := by
  obtain ⟨⟨calls, hle, hwalks, -⟩, hmoves, -⟩ := reading_ends (kneeLoaded.nexts 2)
  obtain ⟨-, -, hrests, -⟩ := reading_ends (kneeLoaded.nexts 5)
  obtain ⟨-, -, -, hagain, -⟩ := reading_ends kneeLoaded
  obtain ⟨-, -, -, -, hfails⟩ := reading_ends brokenLoaded
  have hlength : (kneeLoaded.nexts 2).lines.length - (kneeLoaded.nexts 2).cursor + 1 = 5 := by
    decide +kernel
  have hdoc : kneeLoaded.readDocument.1 =
      .ok ⟨[["bus", "can0"]], [⟨"motor", "knee.dd", 3, [["kp", "40.0"], ["kd", "2.5"]]⟩]⟩ := by
    decide +kernel
  obtain ⟨-, hend⟩ := hrests (by decide +kernel) [.readDocument, .next, .current] (by simp)
  exact ⟨⟨calls, hlength ▸ hle, hwalks⟩, hmoves (by decide +kernel), hend, hagain _ hdoc,
    hfails unmatchedArm (by decide +kernel)⟩

end DeviceDescription
