import DeviceDescription.Proofs.Columns

/-!
# Lines behind other lines

A line with its quotes in order and no comment does nothing to a line that is put behind it, if
there are blanks between the two: its tokens come first, and the columns of faults count on from
its end. The reason is that a scanner never looks back. What it has read and the tokens it has
finished before a line begins can be put in front of every state that it comes to on that line,
`Scan.State.behind`, and make no difference to its next step.
-/

namespace DeviceDescription

/-- The fault of a line that comes behind `offset` characters. -/
def QuoteError.behind (offset : Nat) : QuoteError → QuoteError
  | .unclosed column => .unclosed (offset + column)
  | .misplaced column => .misplaced (offset + column)

namespace Scan

def Mode.behind (offset : Nat) : Mode → Mode
  | .gap => .gap
  | .word spelled => .word spelled
  | .quoted column spelled => .quoted (offset + column) spelled
  | .closed column => .closed (offset + column)

/-- The state on a line that comes behind `offset` characters, in which the tokens given have been
finished, last first. -/
def State.behind (offset : Nat) (earlier : List String) (s : State) : State :=
  ⟨offset + s.read, s.tokens ++ earlier, s.mode.behind offset⟩

section Behind

variable (offset : Nat) (earlier : List String)

theorem step_behind (s : State) (c : Char) :
    step (s.behind offset earlier) c =
      ((step s c).map (State.behind offset earlier)).mapError (QuoteError.behind offset) := by
  obtain ⟨read, tokens, mode⟩ := s
  cases mode <;> simp only [step, State.behind, Mode.behind] <;> split_ifs <;>
    simp [Except.map, Except.mapError, State.behind, Mode.behind, QuoteError.behind, Nat.add_assoc]

theorem advance_behind (s : State) (code : List Char) :
    advance (s.behind offset earlier) code =
      ((advance s code).map (State.behind offset earlier)).mapError
        (QuoteError.behind offset) := by
  induction code generalizing s with
  | nil => rfl
  | cons c code ih =>
    rw [advance, advance, step_behind]
    cases step s c with
    | error e => rfl
    | ok s' => exact ih s'

theorem finish_behind (s : State) :
    (s.behind offset earlier).finish =
      (s.finish.map (earlier.reverse ++ ·)).mapError (QuoteError.behind offset) := by
  obtain ⟨read, tokens, mode⟩ := s
  cases mode <;>
    simp [State.finish, State.behind, Mode.behind, QuoteError.behind, Except.map, Except.mapError]

end Behind

theorem After.read_eq {code : List Char} {s : State} (h : After code s) : s.read = code.length := by
  cases h <;> rfl

end Scan

section Line

variable {a w b : String} {tokens : List String}

theorem uncommented_append_of_not_mem {code : List Char} (h : '#' ∉ code) (rest : List Char) :
    uncommented (code ++ rest) = code ++ uncommented rest := by
  obtain ⟨comment, hrest, hfree, hcomment⟩ := uncommented_eq_iff.mp (Eq.refl (uncommented rest))
  refine uncommented_eq_iff.mpr ⟨comment, ?_, by simp [h, hfree], hcomment⟩
  rw [List.append_assoc, ← hrest]

theorem AllBlank.hash_not_mem {w : List Char} (h : AllBlank w) : '#' ∉ w := by
  intro hmem
  exact absurd (h '#' hmem) (by decide)

/-- After a line in order without a comment, and a blank, the scanner is where it is before a line,
but for what it has read and finished. -/
theorem advance_append_blanks (ha : '#' ∉ a.toList) (h : tokenize a = .ok tokens)
    (hw : AllBlank w.toList) (hne : w.toList ≠ []) :
    Scan.advance .initial (a ++ w).toList =
      .ok (Scan.State.initial.behind (a ++ w).length tokens.reverse) := by
  rw [tokenize, uncommented_of_not_mem ha] at h
  cases hs : Scan.advance .initial a.toList with
  | error e =>
    rw [hs] at h
    cases h
  | ok s =>
    rw [hs] at h
    have hread : s.read = a.toList.length := (Scan.After.initial.advance hs).read_eq
    rw [String.toList_append, Scan.advance_append, hs]
    change Scan.advance s w.toList = _
    rw [Scan.advance_blanks h hw hne, hread]
    simp [Scan.State.behind, Scan.State.initial, Scan.Mode.behind, String.length_toList]

theorem tokenize_append_blanks (ha : '#' ∉ a.toList) (h : tokenize a = .ok tokens)
    (hw : AllBlank w.toList) (hne : w.toList ≠ []) (b : String) :
    tokenize (a ++ w ++ b) =
      ((tokenize b).map (tokens ++ ·)).mapError (QuoteError.behind (a ++ w).length) := by
  have hfree : '#' ∉ (a ++ w).toList := by
    simp [ha, hw.hash_not_mem]
  rw [tokenize, String.toList_append, uncommented_append_of_not_mem hfree, Scan.advance_append,
    advance_append_blanks ha h hw hne]
  change (Scan.advance (Scan.State.initial.behind _ _) _).bind Scan.State.finish = _
  rw [Scan.advance_behind, tokenize]
  cases Scan.advance .initial (uncommented b.toList) with
  | error e => rfl
  | ok s =>
    have hfinish := Scan.finish_behind (a ++ w).length tokens.reverse s
    rw [List.reverse_reverse] at hfinish
    exact hfinish

end Line

/-- Behind a line in order without a comment, and a blank or more, a line in order adds its tokens,
and one that is not has the same fault, as many columns further on as there are characters before
it. -/
theorem tokenize_behind {a w b : String} {ts : List String} (ha : '#' ∉ a.toList)
    (hts : tokenize a = .ok ts) (hne : w ≠ "") (hw : ∀ c ∈ w.toList, isBlank c = true) :
    (∀ us, tokenize b = .ok us → tokenize (a ++ w ++ b) = .ok (ts ++ us)) ∧
      (∀ column, tokenize b = .error (.unclosed column) →
        tokenize (a ++ w ++ b) = .error (.unclosed (column + (a ++ w).length))) ∧
      ∀ column, tokenize b = .error (.misplaced column) →
        tokenize (a ++ w ++ b) = .error (.misplaced (column + (a ++ w).length)) := by
  have hlist : w.toList ≠ [] := by
    intro hnil
    exact hne (String.toList_eq_nil_iff.mp hnil)
  rw [tokenize_append_blanks ha hts hw hlist b]
  refine ⟨?_, ?_, ?_⟩
  · intro us hus
    rw [hus]
    rfl
  · intro column hcolumn
    rw [hcolumn, Nat.add_comm]
    rfl
  · intro column hcolumn
    rw [hcolumn, Nat.add_comm]
    rfl

theorem tokenize_behind_label :
    tokenize ("label \"left hip\"" ++ "\u3000 " ++ "kp\t40.0 # gain") =
        .ok ["label", "left hip", "kp", "40.0"] ∧
      tokenize ("label \"left hip\"" ++ "\u3000 " ++ "kp \"40") = .error (.unclosed 22) ∧
      tokenize ("label \"left hip\"" ++ "\u3000 " ++ "\"kp\"40") = .error (.misplaced 22) := by
  have hlabel : tokenize "label \"left hip\"" = .ok ["label", "left hip"] := by decide +kernel
  have hhash : '#' ∉ "label \"left hip\"".toList := by decide +kernel
  have hblank : ∀ c ∈ "\u3000 ".toList, isBlank c = true := List.all_eq_true.mp (by decide +kernel)
  have hne : "\u3000 " ≠ "" := by simp
  obtain ⟨hgain, -, -⟩ := tokenize_behind (b := "kp\t40.0 # gain") hhash hlabel hne hblank
  obtain ⟨-, hopen, -⟩ := tokenize_behind (b := "kp \"40") hhash hlabel hne hblank
  obtain ⟨-, -, hword⟩ := tokenize_behind (b := "\"kp\"40") hhash hlabel hne hblank
  exact ⟨hgain ["kp", "40.0"] (by decide +kernel), hopen 4 (by decide +kernel),
    hword 4 (by decide +kernel)⟩

end DeviceDescription
