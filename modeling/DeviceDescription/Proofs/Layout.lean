import DeviceDescription.Token.Scan
import Mathlib.Data.List.Basic
import Mathlib.Data.List.TakeWhile
import Mathlib.Tactic.Common

/-!
# The layout of tokens in a line

Up to its comment a line is made of blanks and tokens, with blanks between any two tokens. A line is
cut into tokens exactly if it is laid out so. That the scanner accepts nothing else follows from
what it has read when it is in a state, `Scan.After`, which every step keeps; that it accepts all of
these is seen by running it over one token and its blanks after the other.
-/

namespace DeviceDescription

def AllBlank (w : List Char) : Prop := ∀ c ∈ w, isBlank c = true

def AllPlain (w : List Char) : Prop := ∀ c ∈ w, isBlank c = false ∧ c ≠ '"'

/-- The characters stand for a token: a word for itself, others for what is between their quotes. -/
inductive Denotes : List Char → String → Prop
  | word {w} : w ≠ [] → AllPlain w → Denotes w (String.ofList w)
  | quoted {w} : '"' ∉ w → Denotes ('"' :: (w ++ ['"'])) (String.ofList w)

/-- A token as it stands in a line, and the blanks after it. -/
structure Cell where
  written : List Char
  token : String
  gap : List Char
  denotes : Denotes written token
  blank : AllBlank gap

def Cell.text (cell : Cell) : List Char := cell.written ++ cell.gap

/-- The characters are blanks and then the tokens, each with blanks after it. Only after the last
token there may be none. -/
def LaidOut (code : List Char) (tokens : List String) : Prop :=
  ∃ (lead : List Char) (cells : List Cell), AllBlank lead ∧
    (∀ cell ∈ cells.dropLast, cell.gap ≠ []) ∧
    code = lead ++ cells.flatMap Cell.text ∧ tokens = cells.map Cell.token

/-- The part of the line before its first `#` is laid out as the tokens. -/
def Bears (line : String) (tokens : List String) : Prop :=
  ∃ code comment, line.toList = code ++ comment ∧ '#' ∉ code ∧
    (comment = [] ∨ comment.head? = some '#') ∧ LaidOut code tokens

/-- Laid out with blanks after the last token too, so that another one can follow. -/
def Parted (code : List Char) (tokens : List String) : Prop :=
  ∃ (lead : List Char) (cells : List Cell), AllBlank lead ∧ (∀ cell ∈ cells, cell.gap ≠ []) ∧
    code = lead ++ cells.flatMap Cell.text ∧ tokens = cells.map Cell.token

theorem uncommented_eq_iff {line code : List Char} :
    uncommented line = code ↔
      ∃ comment, line = code ++ comment ∧ '#' ∉ code ∧
        (comment = [] ∨ comment.head? = some '#') := by
  constructor
  · rintro rfl
    refine ⟨line.dropWhile (· != '#'), List.takeWhile_append_dropWhile.symm, ?_, ?_⟩
    · intro h
      simpa using List.mem_takeWhile_imp h
    · have h := List.head?_dropWhile_not (· != '#') line
      cases hd : line.dropWhile (· != '#') with
      | nil => exact .inl rfl
      | cons c rest =>
        rw [hd] at h
        exact .inr (by simpa using h)
  · rintro ⟨comment, rfl, hcode, hcomment⟩
    have hall : ∀ c ∈ code, (c != '#') = true := by
      intro c hc
      rw [bne_iff_ne]
      rintro rfl
      exact hcode hc
    rw [uncommented, List.takeWhile_append_of_pos hall]
    rcases hcomment with rfl | hcomment
    · simp
    · obtain ⟨rest, rfl⟩ := List.head?_eq_some_iff.mp hcomment
      simp

theorem bears_iff {line : String} {tokens : List String} :
    Bears line tokens ↔ LaidOut (uncommented line.toList) tokens := by
  constructor
  · rintro ⟨code, comment, hline, hcode, hcomment, hlaid⟩
    rwa [uncommented_eq_iff.mpr ⟨comment, hline, hcode, hcomment⟩]
  · intro h
    obtain ⟨comment, hline, hcode, hcomment⟩ := uncommented_eq_iff.mp (Eq.refl (uncommented line.toList))
    exact ⟨_, comment, hline, hcode, hcomment, h⟩

/-! ### Adding to a layout -/

theorem AllBlank.append {v w : List Char} (hv : AllBlank v) (hw : AllBlank w) :
    AllBlank (v ++ w) :=
  List.forall_mem_append.mpr ⟨hv, hw⟩

theorem allBlank_singleton {c : Char} (h : isBlank c = true) : AllBlank [c] :=
  List.forall_mem_singleton.mpr h

namespace Parted

variable {code : List Char} {tokens : List String} {c : Char}

theorem nil : Parted [] [] := ⟨[], [], by simp [AllBlank], by simp, rfl, rfl⟩

theorem laidOut (h : Parted code tokens) : LaidOut code tokens := by
  obtain ⟨lead, cells, hlead, hgaps, hcode, htokens⟩ := h
  exact ⟨lead, cells, hlead, fun cell hc => hgaps cell (cells.dropLast_subset hc), hcode, htokens⟩

theorem blank (h : Parted code tokens) (hc : isBlank c = true) : Parted (code ++ [c]) tokens := by
  obtain ⟨lead, cells, hlead, hgaps, rfl, rfl⟩ := h
  have hblank := allBlank_singleton hc
  rcases List.eq_nil_or_concat' cells with rfl | ⟨front, cell, rfl⟩
  · exact ⟨lead ++ [c], [], hlead.append hblank, by simp, by simp, rfl⟩
  · obtain ⟨hfront, -⟩ := List.forall_mem_append.mp hgaps
    have hgap : cell.gap ++ [c] ≠ [] :=
      List.append_ne_nil_of_right_ne_nil _ (List.cons_ne_nil _ _)
    refine ⟨lead,
      front ++ [{ cell with gap := cell.gap ++ [c], blank := cell.blank.append hblank }], hlead,
      ?_, ?_, ?_⟩
    · exact List.forall_mem_append.mpr ⟨hfront, List.forall_mem_singleton.mpr hgap⟩
    · simp [Cell.text, List.append_assoc]
    · simp

theorem token {t : List Char} {tok : String} (h : Parted code tokens) (ht : Denotes t tok)
    (hc : isBlank c = true) : Parted (code ++ t ++ [c]) (tokens ++ [tok]) := by
  obtain ⟨lead, cells, hlead, hgaps, rfl, rfl⟩ := h
  have hgap : [c] ≠ [] := List.cons_ne_nil _ _
  refine ⟨lead, cells ++ [⟨t, tok, [c], ht, allBlank_singleton hc⟩], hlead, ?_, ?_, ?_⟩
  · exact List.forall_mem_append.mpr ⟨hgaps, List.forall_mem_singleton.mpr hgap⟩
  · simp [Cell.text, List.append_assoc]
  · simp

theorem last {t : List Char} {tok : String} (h : Parted code tokens) (ht : Denotes t tok) :
    LaidOut (code ++ t) (tokens ++ [tok]) := by
  obtain ⟨lead, cells, hlead, hgaps, rfl, rfl⟩ := h
  refine ⟨lead, cells ++ [⟨t, tok, [], ht, by simp [AllBlank]⟩], hlead, ?_, ?_, ?_⟩
  · rwa [List.dropLast_concat]
  · simp [Cell.text, List.append_assoc]
  · simp

end Parted

namespace Scan

/-! ### What has been read in a state -/

/-- The characters that bring the scanner to a state. -/
inductive After : List Char → State → Prop
  | gap {code tokens} : Parted code tokens.reverse → After code ⟨code.length, tokens, .gap⟩
  | word {code tokens spelled} : Parted code tokens.reverse → spelled ≠ [] → AllPlain spelled →
      After (code ++ spelled.reverse)
        ⟨(code ++ spelled.reverse).length, tokens, .word spelled⟩
  | quoted {code tokens spelled} : Parted code tokens.reverse → '"' ∉ spelled →
      After (code ++ '"' :: spelled.reverse)
        ⟨(code ++ '"' :: spelled.reverse).length, tokens, .quoted (code.length + 1) spelled⟩
  | closed {code tokens spelled} : Parted code tokens.reverse → '"' ∉ spelled →
      After (code ++ '"' :: (spelled.reverse ++ ['"']))
        ⟨(code ++ '"' :: (spelled.reverse ++ ['"'])).length, spell spelled :: tokens,
          .closed (code ++ '"' :: (spelled.reverse ++ ['"'])).length⟩

theorem After.initial : After [] .initial := .gap Parted.nil

theorem denotes_word {spelled : List Char} (hne : spelled ≠ []) (h : AllPlain spelled) :
    Denotes spelled.reverse (spell spelled) :=
  .word (by simpa using hne) fun c hc => h c (List.mem_reverse.mp hc)

theorem denotes_quoted {spelled : List Char} (h : '"' ∉ spelled) :
    Denotes ('"' :: (spelled.reverse ++ ['"'])) (spell spelled) :=
  .quoted (by simpa using h)

theorem After.step {read : List Char} {s s' : State} {c : Char} (h : After read s)
    (hs : step s c = .ok s') : After (read ++ [c]) s' := by
  have hlength (w : List Char) : w.length + 1 = (w ++ [c]).length := by simp
  cases h with
  | @gap code tokens hp =>
    by_cases hb : isBlank c
    · simp only [Scan.step, if_pos hb, Except.ok.injEq] at hs
      subst hs
      rw [hlength]
      exact .gap (hp.blank hb)
    · by_cases hq : c = '"'
      · subst hq
        simp only [Scan.step, if_neg hb, if_true, Except.ok.injEq] at hs
        subst hs
        have hopen := After.quoted hp List.not_mem_nil
        rw [List.reverse_nil, List.length_append, List.length_singleton] at hopen
        exact hopen
      · simp only [Scan.step, if_neg hb, if_neg hq, Except.ok.injEq] at hs
        subst hs
        rw [hlength]
        have hplain : AllPlain [c] := List.forall_mem_singleton.mpr ⟨by simpa using hb, hq⟩
        exact .word hp (List.cons_ne_nil c []) hplain
  | @word code tokens spelled hp hne hall =>
    by_cases hb : isBlank c
    · simp only [Scan.step, if_pos hb, Except.ok.injEq] at hs
      subst hs
      rw [hlength]
      refine .gap ?_
      rw [List.reverse_cons]
      exact hp.token (denotes_word hne hall) hb
    · by_cases hq : c = '"'
      · simp only [Scan.step, if_neg hb, if_pos hq, reduceCtorEq] at hs
      · simp only [Scan.step, if_neg hb, if_neg hq, Except.ok.injEq] at hs
        subst hs
        rw [hlength, List.append_assoc, ← List.reverse_cons]
        refine .word hp (List.cons_ne_nil _ _) ?_
        exact List.forall_mem_cons.mpr ⟨⟨by simpa using hb, hq⟩, hall⟩
  | @quoted code tokens spelled hp hall =>
    by_cases hq : c = '"'
    · subst hq
      simp only [Scan.step, if_true, Except.ok.injEq] at hs
      subst hs
      rw [hlength, List.append_assoc, List.cons_append]
      exact .closed hp hall
    · simp only [Scan.step, if_neg hq, Except.ok.injEq] at hs
      subst hs
      rw [hlength, List.append_assoc, List.cons_append, ← List.reverse_cons]
      refine .quoted hp ?_
      rw [List.mem_cons, not_or]
      exact ⟨fun he => hq he.symm, hall⟩
  | @closed code tokens spelled hp hall =>
    by_cases hb : isBlank c
    · simp only [Scan.step, if_pos hb, Except.ok.injEq] at hs
      subst hs
      rw [hlength]
      refine .gap ?_
      rw [List.reverse_cons]
      exact hp.token (denotes_quoted hall) hb
    · simp only [Scan.step, if_neg hb, reduceCtorEq] at hs

theorem After.advance {read rest : List Char} {s s' : State} (h : After read s)
    (hs : advance s rest = .ok s') : After (read ++ rest) s' := by
  induction rest generalizing read s with
  | nil =>
    obtain rfl := Except.ok.inj hs
    rwa [List.append_nil]
  | cons c rest ih =>
    rw [Scan.advance] at hs
    cases hstep : Scan.step s c with
    | error e =>
      rw [hstep] at hs
      cases hs
    | ok s₁ =>
      rw [hstep] at hs
      rw [List.append_cons]
      exact ih (h.step hstep) hs

theorem After.laidOut {read : List Char} {s : State} {tokens : List String} (h : After read s)
    (hs : s.finish = .ok tokens) : LaidOut read tokens := by
  cases h with
  | gap hp =>
    obtain rfl := Except.ok.inj hs
    exact hp.laidOut
  | word hp hne hall =>
    obtain rfl := Except.ok.inj hs
    rw [List.reverse_cons]
    exact hp.last (denotes_word hne hall)
  | quoted => cases hs
  | closed hp hall =>
    obtain rfl := Except.ok.inj hs
    rw [List.reverse_cons]
    exact hp.last (denotes_quoted hall)

/-! ### Running over a layout -/

theorem step_blank {s : State} {tokens : List String} {c : Char} (h : s.finish = .ok tokens)
    (hc : isBlank c = true) : step s c = .ok ⟨s.read + 1, tokens.reverse, .gap⟩ := by
  obtain ⟨read, rev, mode⟩ := s
  cases mode with
  | gap =>
    obtain rfl := Except.ok.inj h
    simp only [step, if_pos hc, List.reverse_reverse]
  | word spelled =>
    obtain rfl := Except.ok.inj h
    simp only [step, if_pos hc, List.reverse_reverse]
  | quoted => cases h
  | closed =>
    obtain rfl := Except.ok.inj h
    simp only [step, if_pos hc, List.reverse_reverse]

/-- Characters that each keep the scanner in one mode, in which it may spell a token. -/
theorem advance_of_step {p : Char → Prop} {tokens : List String} (mode : List Char → Mode)
    (hstep : ∀ n spelled c, p c →
      step ⟨n, tokens, mode spelled⟩ c = .ok ⟨n + 1, tokens, mode (c :: spelled)⟩)
    {w : List Char} (h : ∀ c ∈ w, p c) (n : Nat) (spelled : List Char) :
    advance ⟨n, tokens, mode spelled⟩ w =
      .ok ⟨n + w.length, tokens, mode (w.reverse ++ spelled)⟩ := by
  induction w generalizing n spelled with
  | nil => rfl
  | cons c w ih =>
    obtain ⟨hc, hw⟩ := List.forall_mem_cons.mp h
    have hrest := ih hw (n + 1) (c :: spelled)
    rw [Nat.add_assoc, Nat.add_comm 1] at hrest
    rw [advance, hstep n spelled c hc, List.reverse_cons, List.append_assoc, List.singleton_append]
    exact hrest

theorem advance_gap {w : List Char} (h : AllBlank w) (n : Nat) (tokens : List String) :
    advance ⟨n, tokens, .gap⟩ w = .ok ⟨n + w.length, tokens, .gap⟩ := by
  refine advance_of_step (fun _ => .gap) ?_ h n []
  intro n _ c hc
  simp only [step, if_pos hc]

theorem advance_word {w : List Char} (h : AllPlain w) (n : Nat) (tokens : List String)
    (spelled : List Char) :
    advance ⟨n, tokens, .word spelled⟩ w =
      .ok ⟨n + w.length, tokens, .word (w.reverse ++ spelled)⟩ := by
  refine advance_of_step .word ?_ h n spelled
  rintro n spelled c ⟨hb, hq⟩
  simp only [step, hb, if_neg hq, Bool.false_eq_true, if_false]

theorem advance_quoted {w : List Char} (h : '"' ∉ w) (n opened : Nat) (tokens : List String)
    (spelled : List Char) :
    advance ⟨n, tokens, .quoted opened spelled⟩ w =
      .ok ⟨n + w.length, tokens, .quoted opened (w.reverse ++ spelled)⟩ := by
  have hne : ∀ c ∈ w, c ≠ '"' := by
    rintro c hc rfl
    exact h hc
  refine advance_of_step (.quoted opened) ?_ hne n spelled
  intro n spelled c hc
  simp only [step, if_neg hc]

theorem advance_blanks {s : State} {tokens : List String} {w : List Char}
    (h : s.finish = .ok tokens) (hw : AllBlank w) (hne : w ≠ []) :
    advance s w = .ok ⟨s.read + w.length, tokens.reverse, .gap⟩ := by
  cases w with
  | nil => exact absurd rfl hne
  | cons c w =>
    obtain ⟨hc, hw⟩ := List.forall_mem_cons.mp hw
    rw [advance, step_blank h hc]
    have hrest := advance_gap hw (s.read + 1) tokens.reverse
    rw [Nat.add_assoc, Nat.add_comm 1] at hrest
    exact hrest

theorem exists_advance_of_denotes {written : List Char} {token : String}
    (h : Denotes written token) (n : Nat) (tokens : List String) :
    ∃ s, advance ⟨n, tokens, .gap⟩ written = .ok s ∧
      s.finish = .ok (tokens.reverse ++ [token]) := by
  cases h with
  | word hne hall =>
    cases written with
    | nil => exact absurd rfl hne
    | cons c w =>
      obtain ⟨⟨hb, hq⟩, hw⟩ := List.forall_mem_cons.mp hall
      have hstep : step ⟨n, tokens, .gap⟩ c = .ok ⟨n + 1, tokens, .word [c]⟩ := by
        simp only [step, hb, if_neg hq, Bool.false_eq_true, if_false]
      refine ⟨⟨n + 1 + w.length, tokens, .word (w.reverse ++ [c])⟩, ?_, ?_⟩
      · rw [advance, hstep]
        exact advance_word hw (n + 1) tokens [c]
      · simp only [State.finish, spell, List.reverse_append, List.reverse_reverse,
          List.reverse_cons, List.reverse_nil, List.nil_append, List.singleton_append]
  | @quoted w hall =>
    have hopen : step ⟨n, tokens, .gap⟩ '"' = .ok ⟨n + 1, tokens, .quoted (n + 1) []⟩ := by
      simp only [step, if_true]
      rfl
    refine ⟨⟨n + 1 + w.length + 1, spell w.reverse :: tokens, .closed (n + 1 + w.length + 1)⟩, ?_, ?_⟩
    · have hinside := advance_quoted hall (n + 1) (n + 1) tokens []
      rw [List.append_nil] at hinside
      rw [advance, hopen]
      change advance _ (w ++ ['"']) = _
      rw [advance_append, hinside]
      rfl
    · simp only [State.finish, spell, List.reverse_reverse, List.reverse_cons]

theorem exists_advance_of_cells {cells : List Cell}
    (hgaps : ∀ cell ∈ cells.dropLast, cell.gap ≠ []) (n : Nat) (tokens : List String) :
    ∃ s, advance ⟨n, tokens, .gap⟩ (cells.flatMap Cell.text) = .ok s ∧
      s.finish = .ok (tokens.reverse ++ cells.map Cell.token) := by
  induction cells generalizing n tokens with
  | nil => exact ⟨⟨n, tokens, .gap⟩, rfl, by simp [State.finish]⟩
  | cons cell cells ih =>
    obtain ⟨s, hs, hfinish⟩ := exists_advance_of_denotes cell.denotes n tokens
    rw [List.flatMap_cons, Cell.text, List.append_assoc, advance_append, hs]
    change ∃ s', advance s (cell.gap ++ cells.flatMap Cell.text) = .ok s' ∧ _
    by_cases hgap : cell.gap = []
    · have hnil : cells = [] := by
        cases cells with
        | nil => rfl
        | cons next cells => exact absurd hgap (hgaps cell List.mem_cons_self)
      subst hnil
      rw [hgap]
      exact ⟨s, rfl, hfinish⟩
    · have hrest : ∀ cell ∈ cells.dropLast, cell.gap ≠ [] := by
        intro x hx
        apply hgaps
        cases cells with
        | nil => cases hx
        | cons next cells => exact List.mem_cons_of_mem _ hx
      obtain ⟨s', hs', hfinish'⟩ := ih hrest (s.read + cell.gap.length)
        (tokens.reverse ++ [cell.token]).reverse
      rw [advance_append, advance_blanks hfinish cell.blank hgap]
      refine ⟨s', hs', ?_⟩
      rw [hfinish', List.reverse_reverse, List.append_assoc]
      rfl

/-- The scanner ends with the tokens just if the characters are laid out as them. -/
theorem finish_eq_ok_iff {code : List Char} {tokens : List String} :
    (advance .initial code).bind State.finish = .ok tokens ↔ LaidOut code tokens := by
  constructor
  · intro h
    cases hs : advance .initial code with
    | error e =>
      rw [hs] at h
      cases h
    | ok s =>
      rw [hs] at h
      have hread : After code s := After.advance .initial hs
      exact hread.laidOut h
  · rintro ⟨lead, cells, hlead, hgaps, rfl, rfl⟩
    obtain ⟨s, hs, hfinish⟩ := exists_advance_of_cells hgaps (0 + lead.length) []
    rw [advance_append, State.initial, advance_gap hlead]
    change (advance _ _).bind State.finish = _
    rw [hs]
    exact hfinish

end Scan

theorem tokenize_eq_ok_iff {line : String} {tokens : List String} :
    tokenize line = .ok tokens ↔ Bears line tokens := by
  rw [bears_iff]
  exact Scan.finish_eq_ok_iff

/-- A line is cut into tokens exactly if what stands before its comment is laid out as these tokens,
which no other ones are; and of a line that is not laid out so, a quote is reported. -/
theorem tokenize_iff_bears (line : String) :
    (∀ tokens, tokenize line = .ok tokens ↔ Bears line tokens) ∧
    (∀ tokens tokens', Bears line tokens → Bears line tokens' → tokens = tokens') ∧
    ((¬ ∃ tokens, Bears line tokens) →
      ∃ column, tokenize line = .error (.unclosed column) ∨
        tokenize line = .error (.misplaced column)) := by
  refine ⟨fun tokens => tokenize_eq_ok_iff, ?_, ?_⟩
  · intro tokens tokens' h h'
    have he := (tokenize_eq_ok_iff.mpr h).symm.trans (tokenize_eq_ok_iff.mpr h')
    exact Except.ok.inj he
  · intro hno
    cases ht : tokenize line with
    | ok tokens => exact absurd ⟨tokens, tokenize_eq_ok_iff.mp ht⟩ hno
    | error e =>
      cases e with
      | unclosed column => exact ⟨column, .inl rfl⟩
      | misplaced column => exact ⟨column, .inr rfl⟩

theorem bears_leftHip :
    (∀ tokens, Bears "  name\t\"left hip\"\u3000\"\" # \"" tokens ↔ tokens = ["name", "left hip", ""]) ∧
      (¬ ∃ tokens, Bears "name \"left # hip\"" tokens) ∧
      ∃ column, tokenize "name \"left # hip\"" = .error (.unclosed column) ∨
        tokenize "name \"left # hip\"" = .error (.misplaced column) := by
  obtain ⟨hlaid, hunique, -⟩ := tokenize_iff_bears "  name\t\"left hip\"\u3000\"\" # \""
  obtain ⟨hcut, -, hfault⟩ := tokenize_iff_bears "name \"left # hip\""
  have hname : Bears "  name\t\"left hip\"\u3000\"\" # \"" ["name", "left hip", ""] :=
    (hlaid _).mp (by decide +kernel)
  have hno : ¬ ∃ tokens, Bears "name \"left # hip\"" tokens := by
    rintro ⟨tokens, h⟩
    have herror : tokenize "name \"left # hip\"" = .error (.unclosed 6) := by decide +kernel
    rw [(hcut tokens).mpr h] at herror
    cases herror
  refine ⟨fun tokens => ⟨fun h => hunique _ _ h hname, ?_⟩, hno, hfault hno⟩
  rintro rfl
  exact hname

end DeviceDescription
