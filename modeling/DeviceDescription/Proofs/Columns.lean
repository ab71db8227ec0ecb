import DeviceDescription.Proofs.Layout

/-!
# The quote that is at fault

The column of a fault is that of a quote before the comment. If the quote is not closed, what stands
before it is in order, nothing after it could have closed it, and one more quote at the end does.
If it is out of place, it stands directly after a word or directly before one, and as it is the
first character that leaves the scanner nowhere to go, or stands right before that one, nothing
written after the line can help. So the scanner is followed up to where it stops, and what it has
read there, `Scan.After`, says what stands before the quote.
-/

namespace DeviceDescription

def QuoteError.column : QuoteError → Nat
  | .unclosed column | .misplaced column => column

/-- A quote between the characters opens a token that the line does not close. -/
structure LeftOpen (line : String) (before after : List Char) : Prop where
  apart : ∀ c, before.getLast? = some c → isBlank c = true
  alone : '"' ∉ uncommented after
  /-- The line is in order up to the quote, and closed by one more at its end. -/
  closable : ∃ tokens, tokenize (String.ofList before) = .ok tokens ∧
    ('#' ∉ line.toList → tokenize (line ++ "\"") = .ok (tokens ++ [String.ofList after]))

/-- A quote between the characters stands where none may. -/
inductive OutOfPlace : List Char → List Char → Prop
  /-- It comes directly after a character of a word. -/
  | afterWord {before after c tokens} : before.getLast? = some c → isBlank c = false → c ≠ '"' →
      tokenize (String.ofList before) = .ok tokens → OutOfPlace before after
  /-- It closes a token, and another character of a word comes directly after it. -/
  | closing {lead inside c after tokens} : '"' ∉ inside →
      (∀ c, lead.getLast? = some c → isBlank c = true) →
      tokenize (String.ofList lead) = .ok tokens →
      tokenize (String.ofList (lead ++ '"' :: inside ++ ['"'])) =
        .ok (tokens ++ [String.ofList inside]) →
      isBlank c = false → c ≠ '#' → OutOfPlace (lead ++ '"' :: inside) (c :: after)

/-! ### Lines without a comment -/

theorem uncommented_of_not_mem {code : List Char} (h : '#' ∉ code) : uncommented code = code :=
  uncommented_eq_iff.mpr ⟨[], (List.append_nil code).symm, h, .inl rfl⟩

theorem tokenize_ofList {code : List Char} {tokens : List String} (hcode : '#' ∉ code)
    (h : LaidOut code tokens) : tokenize (String.ofList code) = .ok tokens := by
  rw [tokenize_eq_ok_iff, bears_iff, String.toList_ofList, uncommented_of_not_mem hcode]
  exact h

theorem exists_uncommented_append (line more : List Char) :
    ∃ rest, uncommented (line ++ more) = uncommented line ++ rest := by
  unfold uncommented
  rw [List.takeWhile_append]
  split
  · next hlength =>
    rw [(List.takeWhile_prefix _).eq_of_length hlength]
    exact ⟨_, rfl⟩
  · exact ⟨[], (List.append_nil _).symm⟩

theorem Parted.isBlank_of_getLast? {code : List Char} {tokens : List String}
    (h : Parted code tokens) {c : Char} (hc : code.getLast? = some c) : isBlank c = true := by
  obtain ⟨lead, cells, hlead, hgaps, rfl, -⟩ := h
  rcases List.eq_nil_or_concat' cells with rfl | ⟨front, cell, rfl⟩
  · rw [List.flatMap_nil, List.append_nil] at hc
    exact hlead c (List.mem_of_getLast? hc)
  · have hgap : cell.gap ≠ [] := hgaps cell (by simp)
    rw [List.flatMap_append, List.flatMap_singleton, Cell.text, ← List.append_assoc,
      ← List.append_assoc, List.getLast?_append_of_ne_nil _ hgap] at hc
    exact cell.blank c (List.mem_of_getLast? hc)

namespace Scan

/-! ### Where the scanner stops -/

section Stop

variable {s : State} {code read : List Char} {e : QuoteError}

theorem advance_append_of_error (h : advance s code = .error e) (more : List Char) :
    advance s (code ++ more) = .error e := by
  rw [advance_append, h]
  rfl

/-- A scan that fails does so at one character, and goes well up to there. -/
theorem exists_step_of_error (h : advance s code = .error e) :
    ∃ read c rest s', code = read ++ c :: rest ∧ advance s read = .ok s' ∧
      step s' c = .error e := by
  induction code generalizing s with
  | nil => cases h
  | cons c code ih =>
    rw [advance] at h
    cases hstep : step s c with
    | error e' =>
      rw [hstep] at h
      obtain rfl := Except.error.inj h
      exact ⟨[], c, code, s, rfl, rfl, hstep⟩
    | ok s₁ =>
      rw [hstep] at h
      obtain ⟨read, c', rest, s', rfl, hread, hfails⟩ := ih h
      refine ⟨c :: read, c', rest, s', rfl, ?_, hfails⟩
      rw [advance, hstep]
      exact hread

/-- The ways for a character to fail: a quote after a word, and no blank after a closing quote. -/
theorem step_error_cases {c : Char} (h : step s c = .error e) :
    (∃ spelled, s.mode = .word spelled ∧ c = '"' ∧ e = .misplaced (s.read + 1)) ∨
      ∃ quote, s.mode = .closed quote ∧ isBlank c = false ∧ e = .misplaced quote := by
  obtain ⟨n, tokens, mode⟩ := s
  cases mode with
  | gap =>
    simp only [step] at h
    split at h
    · cases h
    · split at h <;> cases h
  | word spelled =>
    simp only [step] at h
    split at h
    · cases h
    · split at h
      · next hquote => exact .inl ⟨spelled, rfl, hquote, (Except.error.inj h).symm⟩
      · cases h
  | quoted =>
    simp only [step] at h
    split at h <;> cases h
  | closed quote =>
    simp only [step] at h
    split at h
    · cases h
    · next hblank => exact .inr ⟨quote, rfl, by simpa using hblank, (Except.error.inj h).symm⟩

/-- A scanner that stops at a character has found a quote out of place, that one or the one
before. -/
theorem After.outOfPlace {c : Char} (h : After read s) (hs : Scan.step s c = .error e)
    (hcode : '#' ∉ read ++ [c]) (rest : List Char) :
    ∃ before after, read ++ c :: rest = before ++ '"' :: after ∧ '#' ∉ before ∧
      e = .misplaced (before.length + 1) ∧ OutOfPlace before after := by
  rw [List.mem_append, not_or, List.mem_singleton] at hcode
  obtain ⟨hread, hc⟩ := hcode
  rcases step_error_cases hs with ⟨spelled, hmode, rfl, rfl⟩ | ⟨quote, hmode, hblank, rfl⟩
  · cases h with
    | @word code tokens spelled hp hne hall =>
      have hlaid := hp.last (denotes_word hne hall)
      obtain ⟨x, more, rfl⟩ := List.exists_cons_of_ne_nil hne
      obtain ⟨hx, hquote⟩ := hall x List.mem_cons_self
      refine ⟨_, rest, rfl, hread, rfl, .afterWord ?_ hx hquote (tokenize_ofList hread hlaid)⟩
      rw [List.reverse_cons, ← List.append_assoc, List.getLast?_concat]
    | gap | quoted | closed => cases hmode
  · cases h with
    | @closed code tokens spelled hp hall =>
      obtain rfl := Mode.closed.inj hmode
      have hlaid := hp.last (denotes_quoted hall)
      have hcode : '#' ∉ code := fun hmem => hread (List.mem_append_left _ hmem)
      have hlength : (code ++ '"' :: (spelled.reverse ++ ['"'])).length =
          (code ++ '"' :: spelled.reverse).length + 1 := by
        simp only [List.length_append, List.length_cons, List.length_nil]
        omega
      have hclosed := tokenize_ofList hread hlaid
      rw [← List.cons_append, ← List.append_assoc] at hread hclosed
      refine ⟨code ++ '"' :: spelled.reverse, c :: rest, by simp, ?_, congrArg _ hlength, ?_⟩
      · exact fun hmem => hread (List.mem_append_left _ hmem)
      · exact .closing (by simpa using hall) (fun _ => hp.isBlank_of_getLast?)
          (tokenize_ofList hcode hp.laidOut) hclosed hblank fun he => hc he.symm
    | gap | word | quoted => cases hmode

/-- A scanner that has nothing more to read and cannot finish is inside a quoted token. -/
theorem After.leftOpen {line : String} {comment : List Char} (h : After read s)
    (hs : s.finish = .error e) (hline : line.toList = read ++ comment) (hread : '#' ∉ read)
    (hcomment : comment = [] ∨ comment.head? = some '#') :
    ∃ before after, line.toList = before ++ '"' :: after ∧ '#' ∉ before ∧
      e = .unclosed (before.length + 1) ∧ LeftOpen line before after := by
  cases h with
  | gap | word | closed => cases hs
  | @quoted code tokens spelled hp hall =>
    obtain rfl := Except.error.inj hs
    rw [List.mem_append, not_or, List.mem_cons, not_or] at hread
    obtain ⟨hcode, -, hinside⟩ := hread
    have hwhole : line.toList = code ++ '"' :: (spelled.reverse ++ comment) := by
      rw [hline, List.append_assoc, List.cons_append]
    refine ⟨code, spelled.reverse ++ comment, hwhole, hcode, rfl, ?_, ?_, ?_⟩
    · exact fun _ => hp.isBlank_of_getLast?
    · rw [uncommented_eq_iff.mpr ⟨comment, rfl, hinside, hcomment⟩]
      simpa using hall
    · refine ⟨tokens.reverse, tokenize_ofList hcode hp.laidOut, ?_⟩
      intro hfree
      have hnil : comment = [] := by
        rcases hcomment with hnil | hhash
        · exact hnil
        · have hmem := List.mem_of_head? hhash
          rw [hline] at hfree
          exact absurd (List.mem_append_right _ hmem) hfree
      subst hnil
      have hclosed : line ++ "\"" =
          String.ofList (code ++ '"' :: (spelled.reverse ++ ['"'])) := by
        rw [← String.toList_inj, String.toList_append, String.toList_ofList, hwhole]
        simp
      rw [hclosed, List.append_nil]
      refine tokenize_ofList ?_ (hp.last (denotes_quoted hall))
      simp only [List.mem_append, List.mem_cons, not_or]
      exact ⟨hcode, by decide, hinside, by decide⟩

end Stop

end Scan

/-! ### Lines -/

section Line

variable {line : String} {e : QuoteError}

/-- A line is at fault where the scanner stops, or as a whole. -/
theorem tokenize_error_cases (h : tokenize line = .error e) :
    Scan.advance .initial (uncommented line.toList) = .error e ∨
      ∃ s, Scan.advance .initial (uncommented line.toList) = .ok s ∧ s.finish = .error e := by
  rw [tokenize] at h
  cases hs : Scan.advance .initial (uncommented line.toList) with
  | error e' =>
    rw [hs] at h
    obtain rfl := Except.error.inj h
    exact .inl rfl
  | ok s =>
    rw [hs] at h
    exact .inr ⟨s, rfl, h⟩

theorem tokenize_append_of_error
    (h : Scan.advance .initial (uncommented line.toList) = .error e) (more : String) :
    tokenize (line ++ more) = .error e := by
  obtain ⟨rest, hrest⟩ := exists_uncommented_append line.toList more.toList
  rw [tokenize, String.toList_append, hrest, Scan.advance_append_of_error h]
  rfl

end Line

/-- The column of a fault is that of a quote before the comment. A quote reported as unclosed stands
apart from what is before it, which is in order; no other one comes after it, and a line without a
comment is in order once another one is put at its end, the characters in between being the last
token. A quote reported as misplaced stands after a word or closes a token that a character comes
directly after, and is reported whatever is written after the line. -/
theorem tokenize_error_quote {line : String} {e : QuoteError} (h : tokenize line = .error e) :
    ∃ before after, line.toList = before ++ '"' :: after ∧ '#' ∉ before ∧
      e.column = before.length + 1 ∧
      ((e = .unclosed e.column ∧ LeftOpen line before after) ∨
        (e = .misplaced e.column ∧ OutOfPlace before after ∧
          ∀ more, tokenize (line ++ more) = .error e)) := by
  obtain ⟨comment, hline, hcode, hcomment⟩ := uncommented_eq_iff.mp (Eq.refl (uncommented line.toList))
  rcases tokenize_error_cases h with hstop | ⟨s, hs, hfinish⟩
  · obtain ⟨read, c, rest, s, hsplit, hread, hfails⟩ := Scan.exists_step_of_error hstop
    have hfree : '#' ∉ read ++ [c] := by
      intro hmem
      apply hcode
      rw [hsplit, List.append_cons]
      exact List.mem_append_left _ hmem
    have hafter : Scan.After read s := Scan.After.initial.advance hread
    obtain ⟨before, after, hquote, hbefore, rfl, hplace⟩ :=
      hafter.outOfPlace hfails hfree (rest ++ comment)
    refine ⟨before, after, ?_, hbefore, rfl, .inr ⟨rfl, hplace, tokenize_append_of_error hstop⟩⟩
    rw [← hquote, hline, hsplit, List.append_assoc, List.cons_append]
  · have hafter : Scan.After (uncommented line.toList) s := Scan.After.initial.advance hs
    obtain ⟨before, after, hquote, hbefore, rfl, hopen⟩ :=
      hafter.leftOpen hfinish hline hcode hcomment
    exact ⟨before, after, hquote, hbefore, rfl, .inl ⟨rfl, hopen⟩⟩

/-- After an empty token one is left open; in the other line a word starts where a token is
closed. -/
theorem tokenize_error_leftHip :
    tokenize "id\u3000\"\" \"left hip" = .error (.unclosed 7) ∧
      LeftOpen "id\u3000\"\" \"left hip" "id\u3000\"\" ".toList "left hip".toList ∧
      tokenize "id \"a b\"c # \"" = .error (.misplaced 8) ∧
      OutOfPlace "id \"a b".toList "c # \"".toList ∧
      tokenize ("id \"a b\"c # \"" ++ " d") = .error (.misplaced 8) := by
  have hopen : tokenize "id\u3000\"\" \"left hip" = .error (.unclosed 7) := by decide +kernel
  have hclosing : tokenize "id \"a b\"c # \"" = .error (.misplaced 8) := by decide +kernel
  obtain ⟨before, after, hline, -, hcolumn, hcase⟩ := tokenize_error_quote hopen
  have hsplit : before = "id\u3000\"\" ".toList ∧ '"' :: after = "\"left hip".toList :=
    List.append_inj hline.symm (Nat.succ.inj hcolumn.symm)
  obtain ⟨rfl, hafter⟩ := hsplit
  obtain rfl := (List.cons.inj hafter).2
  obtain ⟨before', after', hline', -, hcolumn', hcase'⟩ := tokenize_error_quote hclosing
  have hsplit' : before' = "id \"a b".toList ∧ '"' :: after' = "\"c # \"".toList :=
    List.append_inj hline'.symm (Nat.succ.inj hcolumn'.symm)
  obtain ⟨rfl, hafter'⟩ := hsplit'
  obtain rfl := (List.cons.inj hafter').2
  rcases hcase with ⟨-, hleft⟩ | ⟨he, -⟩
  · rcases hcase' with ⟨he, -⟩ | ⟨-, hplace, hmore⟩
    · cases he
    · exact ⟨hopen, hleft, hclosing, hplace, hmore " d"⟩
  · cases he

end DeviceDescription
