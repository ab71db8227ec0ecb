import DeviceDescription.Text.Utf8
import Mathlib.Tactic.Ring

/-!
# Decoding undoes encoding

A byte sequence is decoded to a text exactly when it is the encoding of that text, and of an encoded
text the lossy reading is the text itself. Both rest on what an unfinished character may still
become: the code points whose leading bits are those collected and whose next byte is in the
interval allowed.
-/

namespace DeviceDescription.Utf8

/-- The last `n` bytes of the encoding of a code point. -/
def tailBytes (v : Nat) : Nat → List UInt8
  | 0 => []
  | n + 1 => UInt8.ofNat (v / 64 ^ n % 64 + 0x80) :: tailBytes v n

/-- The code points that an unfinished character may still become. -/
structure Partial.Covers (p : Partial) (v : Nat) : Prop where
  leading : v / 64 ^ p.owed = p.bits
  low_le : p.low.toNat ≤ v / 64 ^ (p.owed - 1) % 64 + 0x80
  le_high : v / 64 ^ (p.owed - 1) % 64 + 0x80 ≤ p.high.toNat

theorem Partial.covers_mk (taken : List UInt8) (owed : Nat) (low high : UInt8) (bits v : Nat) :
    Covers ⟨taken, owed, low, high, bits⟩ v ↔ v / 64 ^ owed = bits ∧
      low.toNat ≤ v / 64 ^ (owed - 1) % 64 + 0x80 ∧ v / 64 ^ (owed - 1) % 64 + 0x80 ≤ high.toNat :=
  ⟨fun h => ⟨h.leading, h.low_le, h.le_high⟩, fun h => ⟨h.1, h.2.1, h.2.2⟩⟩

theorem toNat_continuation (d : Nat) : (UInt8.ofNat (d % 64 + 0x80)).toNat = d % 64 + 0x80 := by
  rw [UInt8.toNat_ofNat']
  omega

theorem step_continuation {p : Partial} {v : Nat} (h : p.Covers v) :
    step (some p) (UInt8.ofNat (v / 64 ^ (p.owed - 1) % 64 + 0x80)) =
      p.extend (UInt8.ofNat (v / 64 ^ (p.owed - 1) % 64 + 0x80)) := by
  simp only [step, UInt8.le_iff_toNat_le, toNat_continuation]
  exact if_pos ⟨h.low_le, h.le_high⟩

theorem bits_continuation (v n : Nat) :
    v / 64 ^ (n + 1) * 0x40 + (v / 64 ^ n % 64 + 0x80) % 0x40 = v / 64 ^ n := by
  rw [pow_succ, ← Nat.div_div_eq_div_mul]
  omega

theorem piecesFrom_tailBytes {p : Partial} {v : Nat} (h : p.Covers v) (howed : 1 ≤ p.owed)
    (rest : List UInt8) :
    piecesFrom (some p) (tailBytes v p.owed ++ rest) = .char (Char.ofNat v) :: pieces rest := by
  obtain ⟨n, hn⟩ : ∃ n, p.owed = n + 1 := ⟨p.owed - 1, by omega⟩
  induction n generalizing p with
  | zero =>
    have hs := step_continuation h
    have hv := h.leading
    rw [hn] at hs hv
    have hb := bits_continuation v 0
    simp only [Nat.zero_add, Nat.sub_self, pow_zero, Nat.div_one] at hs hb hv
    rw [hv] at hb
    rw [hn]
    simp only [tailBytes, pow_zero, Nat.div_one, List.cons_append, List.nil_append, piecesFrom, hs]
    simp only [Partial.extend, hn, le_refl, if_true, List.cons_append, List.nil_append,
      toNat_continuation, hb, pieces]
  | succ n ih =>
    have hs := step_continuation h
    have hv := h.leading
    rw [hn] at hs hv
    simp only [Nat.add_sub_cancel] at hs
    have hb := bits_continuation v (n + 1)
    rw [hv] at hb
    let q : Partial := ⟨p.taken ++ [UInt8.ofNat (v / 64 ^ (n + 1) % 64 + 0x80)], n + 1, 0x80, 0xbf,
      v / 64 ^ (n + 1)⟩
    have hq : q.Covers v := by
      refine ⟨rfl, ?_, ?_⟩
      · change 0x80 ≤ _
        omega
      · change v / 64 ^ n % 64 + 0x80 ≤ 0xbf
        omega
    have hext : p.extend (UInt8.ofNat (v / 64 ^ (n + 1) % 64 + 0x80)) = ([], some q) := by
      have hmany : ¬ n + 1 + 1 ≤ 1 := by omega
      simp only [Partial.extend, hn, if_neg hmany, toNat_continuation, hb, Nat.add_sub_cancel, q]
    rw [hn, tailBytes, List.cons_append, piecesFrom, hs, hext]
    exact ih hq (by change 1 ≤ n + 1; omega) rfl

/-- Only the bytes it is owed turn an unfinished character into a character. -/
theorem exists_covers_of_char {p : Partial} (howed : 1 ≤ p.owed) (hlow : 0x80 ≤ p.low.toNat)
    (hhigh : p.high.toNat ≤ 0xbf) {bytes : List UInt8} {c : Char} {ps : List Piece}
    (h : piecesFrom (some p) bytes = .char c :: ps) :
    ∃ v rest, p.Covers v ∧ bytes = tailBytes v p.owed ++ rest := by
  obtain ⟨n, hn⟩ : ∃ n, p.owed = n + 1 := ⟨p.owed - 1, by omega⟩
  induction n generalizing p bytes with
  | zero =>
    cases bytes with
    | nil => simp [piecesFrom] at h
    | cons b rest =>
      by_cases hb : p.low ≤ b ∧ b ≤ p.high
      · have hl := UInt8.le_iff_toNat_le.mp hb.1
        have hh := UInt8.le_iff_toNat_le.mp hb.2
        refine ⟨p.bits * 64 + (b.toNat - 0x80), rest, ⟨?_, ?_, ?_⟩, ?_⟩
        · rw [hn, Nat.zero_add, pow_one]
          omega
        · rw [hn, Nat.zero_add, Nat.sub_self, pow_zero, Nat.div_one]
          omega
        · rw [hn, Nat.zero_add, Nat.sub_self, pow_zero, Nat.div_one]
          omega
        · rw [hn, tailBytes, pow_zero, Nat.div_one]
          have hd : (p.bits * 64 + (b.toNat - 0x80)) % 64 + 0x80 = b.toNat := by omega
          rw [hd, UInt8.ofNat_toNat]
          rfl
      · simp [piecesFrom, step, hb] at h
  | succ n ih =>
    cases bytes with
    | nil => simp [piecesFrom] at h
    | cons b rest =>
      by_cases hb : p.low ≤ b ∧ b ≤ p.high
      · have hl := UInt8.le_iff_toNat_le.mp hb.1
        have hh := UInt8.le_iff_toNat_le.mp hb.2
        let q : Partial := ⟨p.taken ++ [b], n + 1, 0x80, 0xbf, p.bits * 0x40 + b.toNat % 0x40⟩
        have hmany : ¬ n + 1 + 1 ≤ 1 := by omega
        have hext : p.extend b = ([], some q) := by
          simp only [Partial.extend, hn, if_neg hmany, Nat.add_sub_cancel, q]
        have hq : piecesFrom (some q) rest = .char c :: ps := by
          simpa only [piecesFrom, step, if_pos hb, hext, List.nil_append] using h
        obtain ⟨v, tail, hv, rfl⟩ := ih (p := q) (by change 1 ≤ n + 1; omega) (le_refl 0x80)
          (le_refl 0xbf) hq rfl
        have hbits : v / 64 ^ (n + 1) = p.bits * 0x40 + b.toNat % 0x40 := hv.leading
        have hdigit : v / 64 ^ (n + 1) % 64 + 0x80 = b.toNat := by omega
        refine ⟨v, tail, ⟨?_, ?_, ?_⟩, ?_⟩
        · rw [hn, pow_succ, ← Nat.div_div_eq_div_mul, hbits]
          omega
        · rw [hn, Nat.add_sub_cancel, hdigit]
          exact hl
        · rw [hn, Nat.add_sub_cancel, hdigit]
          exact hh
        · have htail : tailBytes v (n + 1 + 1) = b :: tailBytes v (n + 1) := by
            rw [tailBytes, hdigit, UInt8.ofNat_toNat]
          rw [hn, htail]
          rfl
      · simp [piecesFrom, step, hb] at h

theorem start_one {b : UInt8} (h : b.toNat < 0x80) :
    start b = ([.char (Char.ofNat b.toNat)], none) := by
  rw [start, if_pos (UInt8.lt_iff_toNat_lt.mpr h)]

theorem start_two {b : UInt8} (hl : 0xc2 ≤ b.toNat) (hh : b.toNat ≤ 0xdf) :
    start b = ([], some ⟨[b], 1, 0x80, 0xbf, b.toNat % 0x20⟩) := by
  simp only [start, UInt8.lt_iff_toNat_lt, UInt8.le_iff_toNat_le, UInt8.reduceToNat]
  rw [if_neg (by omega), if_pos ⟨hl, hh⟩]

theorem start_three {b : UInt8} (hl : 0xe0 ≤ b.toNat) (hh : b.toNat ≤ 0xef) :
    start b = ([], some ⟨[b], 2, if b.toNat = 0xe0 then 0xa0 else 0x80,
      if b.toNat = 0xed then 0x9f else 0xbf, b.toNat % 0x10⟩) := by
  simp only [start, UInt8.lt_iff_toNat_lt, UInt8.le_iff_toNat_le, ← UInt8.toNat_inj,
    UInt8.reduceToNat]
  rw [if_neg (by omega), if_neg (by omega)]
  by_cases h0 : b.toNat = 0xe0
  · simp [h0]
  · by_cases hd : b.toNat = 0xed
    · simp [hd]
    · rw [if_neg h0, if_neg hd, if_pos (by omega), if_neg h0, if_neg hd]

theorem start_four {b : UInt8} (hl : 0xf0 ≤ b.toNat) (hh : b.toNat ≤ 0xf4) :
    start b = ([], some ⟨[b], 3, if b.toNat = 0xf0 then 0x90 else 0x80,
      if b.toNat = 0xf4 then 0x8f else 0xbf, b.toNat % 0x08⟩) := by
  simp only [start, UInt8.lt_iff_toNat_lt, UInt8.le_iff_toNat_le, ← UInt8.toNat_inj,
    UInt8.reduceToNat]
  rw [if_neg (by omega), if_neg (by omega), if_neg (by omega), if_neg (by omega),
    if_neg (by omega)]
  by_cases h0 : b.toNat = 0xf0
  · simp [h0]
  · by_cases h4 : b.toNat = 0xf4
    · simp [h4]
    · rw [if_neg h0, if_pos (by omega), if_neg h0, if_neg h4]

theorem start_other {b : UInt8} (hl : 0x80 ≤ b.toNat) (hh : b.toNat < 0xc2 ∨ 0xf4 < b.toNat) :
    start b = ([.illFormed [b]], none) := by
  simp only [start, UInt8.lt_iff_toNat_lt, UInt8.le_iff_toNat_le, ← UInt8.toNat_inj,
    UInt8.reduceToNat]
  rw [if_neg (by omega), if_neg (by omega), if_neg (by omega), if_neg (by omega),
    if_neg (by omega), if_neg (by omega), if_neg (by omega), if_neg (by omega)]

theorem toNat_valid (c : Char) : c.toNat < 0xd800 ∨ 0xdfff < c.toNat ∧ c.toNat < 0x110000 :=
  c.valid

theorem encodeChar_one {c : Char} (h : c.toNat < 0x80) :
    String.utf8EncodeChar c = [UInt8.ofNat c.toNat] := by
  change (if c.toNat ≤ 0x7f then _ else _) = _
  rw [if_pos (by omega)]
  rfl

theorem encodeChar_two {c : Char} (hl : 0x80 ≤ c.toNat) (hh : c.toNat ≤ 0x7ff) :
    String.utf8EncodeChar c = UInt8.ofNat (c.toNat / 64 + 0xc0) :: tailBytes c.toNat 1 := by
  have hlead : c.toNat / 64 % 0x20 = c.toNat / 64 := by omega
  change (if c.toNat ≤ 0x7f then _ else if c.toNat ≤ 0x7ff then
    [UInt8.ofNat (c.toNat / 64 % 0x20 + 0xc0), UInt8.ofNat (c.toNat % 0x40 + 0x80)] else _) = _
  rw [if_neg (by omega), if_pos hh, hlead]
  simp only [tailBytes, pow_zero, Nat.div_one]

theorem encodeChar_three {c : Char} (hl : 0x800 ≤ c.toNat) (hh : c.toNat ≤ 0xffff) :
    String.utf8EncodeChar c = UInt8.ofNat (c.toNat / 4096 + 0xe0) :: tailBytes c.toNat 2 := by
  have hlead : c.toNat / 4096 % 0x10 = c.toNat / 4096 := by omega
  change (if c.toNat ≤ 0x7f then _ else if c.toNat ≤ 0x7ff then _ else if c.toNat ≤ 0xffff then
    [UInt8.ofNat (c.toNat / 4096 % 0x10 + 0xe0), UInt8.ofNat (c.toNat / 64 % 0x40 + 0x80),
      UInt8.ofNat (c.toNat % 0x40 + 0x80)] else _) = _
  rw [if_neg (by omega), if_neg (by omega), if_pos hh, hlead]
  simp only [tailBytes, pow_zero, pow_one, Nat.div_one]

theorem encodeChar_four {c : Char} (hl : 0x10000 ≤ c.toNat) :
    String.utf8EncodeChar c = UInt8.ofNat (c.toNat / 262144 + 0xf0) :: tailBytes c.toNat 3 := by
  have hvalid := toNat_valid c
  have hlead : c.toNat / 262144 % 0x08 = c.toNat / 262144 := by omega
  change (if c.toNat ≤ 0x7f then _ else if c.toNat ≤ 0x7ff then _ else if c.toNat ≤ 0xffff then _
    else [UInt8.ofNat (c.toNat / 262144 % 0x08 + 0xf0), UInt8.ofNat (c.toNat / 4096 % 0x40 + 0x80),
      UInt8.ofNat (c.toNat / 64 % 0x40 + 0x80), UInt8.ofNat (c.toNat % 0x40 + 0x80)]) = _
  rw [if_neg (by omega), if_neg (by omega), if_neg (by omega), hlead]
  simp only [tailBytes, pow_zero, pow_one, Nat.div_one, Nat.reducePow]

theorem covers_two {b : UInt8} {v : Nat} (hl : 0xc2 ≤ b.toNat) (hh : b.toNat ≤ 0xdf) :
    Partial.Covers ⟨[b], 1, 0x80, 0xbf, b.toNat % 0x20⟩ v ↔
      0x80 ≤ v ∧ v ≤ 0x7ff ∧ b.toNat = v / 64 + 0xc0 := by
  rw [Partial.covers_mk]
  simp only [UInt8.reduceToNat, Nat.sub_self, pow_zero, pow_one, Nat.div_one]
  omega

theorem covers_three {b : UInt8} {v : Nat} (hl : 0xe0 ≤ b.toNat) (hh : b.toNat ≤ 0xef) :
    Partial.Covers ⟨[b], 2, if b.toNat = 0xe0 then 0xa0 else 0x80,
        if b.toNat = 0xed then 0x9f else 0xbf, b.toNat % 0x10⟩ v ↔
      0x800 ≤ v ∧ v ≤ 0xffff ∧ (v < 0xd800 ∨ 0xdfff < v) ∧ b.toNat = v / 4096 + 0xe0 := by
  rw [Partial.covers_mk]
  have hlow : (if b.toNat = 0xe0 then 0xa0 else 0x80 : UInt8).toNat =
      if b.toNat = 0xe0 then 0xa0 else 0x80 := by split_ifs <;> rfl
  have hhigh : (if b.toNat = 0xed then 0x9f else 0xbf : UInt8).toNat =
      if b.toNat = 0xed then 0x9f else 0xbf := by split_ifs <;> rfl
  simp only [hlow, hhigh, Nat.reduceSub, Nat.reducePow]
  split_ifs <;> omega

theorem covers_four {b : UInt8} {v : Nat} (hl : 0xf0 ≤ b.toNat) (hh : b.toNat ≤ 0xf4) :
    Partial.Covers ⟨[b], 3, if b.toNat = 0xf0 then 0x90 else 0x80,
        if b.toNat = 0xf4 then 0x8f else 0xbf, b.toNat % 0x08⟩ v ↔
      0x10000 ≤ v ∧ v < 0x110000 ∧ b.toNat = v / 262144 + 0xf0 := by
  rw [Partial.covers_mk]
  have hlow : (if b.toNat = 0xf0 then 0x90 else 0x80 : UInt8).toNat =
      if b.toNat = 0xf0 then 0x90 else 0x80 := by split_ifs <;> rfl
  have hhigh : (if b.toNat = 0xf4 then 0x8f else 0xbf : UInt8).toNat =
      if b.toNat = 0xf4 then 0x8f else 0xbf := by split_ifs <;> rfl
  simp only [hlow, hhigh, Nat.reduceSub, Nat.reducePow]
  split_ifs <;> omega

theorem exists_start_of_encodeChar {c : Char} (h : 0x80 ≤ c.toNat) :
    ∃ b p, start b = ([], some p) ∧ 1 ≤ p.owed ∧ p.Covers c.toNat ∧
      String.utf8EncodeChar c = b :: tailBytes c.toNat p.owed := by
  have hvalid := toNat_valid c
  by_cases h2 : c.toNat ≤ 0x7ff
  · have hb : (UInt8.ofNat (c.toNat / 64 + 0xc0)).toNat = c.toNat / 64 + 0xc0 := by
      rw [UInt8.toNat_ofNat']
      omega
    refine ⟨UInt8.ofNat (c.toNat / 64 + 0xc0), _, start_two (by omega) (by omega), le_refl 1, ?_,
      encodeChar_two h h2⟩
    exact (covers_two (by omega) (by omega)).mpr ⟨h, h2, hb⟩
  · by_cases h3 : c.toNat ≤ 0xffff
    · have hb : (UInt8.ofNat (c.toNat / 4096 + 0xe0)).toNat = c.toNat / 4096 + 0xe0 := by
        rw [UInt8.toNat_ofNat']
        omega
      refine ⟨UInt8.ofNat (c.toNat / 4096 + 0xe0), _, start_three (by omega) (by omega),
        Nat.le_add_left 1 1, ?_, encodeChar_three (by omega) h3⟩
      exact (covers_three (by omega) (by omega)).mpr ⟨by omega, h3, by omega, hb⟩
    · have hb : (UInt8.ofNat (c.toNat / 262144 + 0xf0)).toNat = c.toNat / 262144 + 0xf0 := by
        rw [UInt8.toNat_ofNat']
        omega
      refine ⟨UInt8.ofNat (c.toNat / 262144 + 0xf0), _, start_four (by omega) (by omega),
        Nat.le_add_left 1 2, ?_, encodeChar_four (by omega)⟩
      exact (covers_four (by omega) (by omega)).mpr ⟨by omega, by omega, hb⟩

theorem toNat_ofNat {v : Nat} (h : v < 0xd800 ∨ 0xdfff < v ∧ v < 0x110000) :
    (Char.ofNat v).toNat = v := by
  have hv : v.isValidChar := h
  rw [Char.ofNat, dif_pos hv]
  rfl

/-- An unfinished character started by `b`: what it covers are characters whose encodings start
with `b`, and the next byte is a continuation byte. -/
structure Partial.StartedBy (b : UInt8) (p : Partial) : Prop where
  owed_pos : 1 ≤ p.owed
  low_ge : 0x80 ≤ p.low.toNat
  high_le : p.high.toNat ≤ 0xbf
  encodes : ∀ v, p.Covers v →
    String.utf8EncodeChar (Char.ofNat v) = b :: tailBytes v p.owed

/-- A byte where a character may start is one, starts one, or belongs to none. -/
theorem start_cases (b : UInt8) :
    (b.toNat < 0x80 ∧ start b = ([.char (Char.ofNat b.toNat)], none)) ∨
      (∃ p, start b = ([], some p) ∧ p.StartedBy b) ∨ start b = ([.illFormed [b]], none) := by
  by_cases h1 : b.toNat < 0x80
  · exact .inl ⟨h1, start_one h1⟩
  refine .inr ?_
  by_cases h2 : 0xc2 ≤ b.toNat ∧ b.toNat ≤ 0xdf
  · refine .inl ⟨_, start_two h2.1 h2.2, le_refl 1, le_refl 0x80, le_refl 0xbf, ?_⟩
    intro v hv
    obtain ⟨hl, hh, hb⟩ := (covers_two h2.1 h2.2).mp hv
    have hn := toNat_ofNat (v := v) (by omega)
    rw [encodeChar_two (by omega) (by omega), hn, ← hb, UInt8.ofNat_toNat]
  by_cases h3 : 0xe0 ≤ b.toNat ∧ b.toNat ≤ 0xef
  · refine .inl ⟨_, start_three h3.1 h3.2, Nat.le_add_left 1 1, ?_, ?_, ?_⟩
    · dsimp only
      split_ifs <;> decide
    · dsimp only
      split_ifs <;> decide
    · intro v hv
      obtain ⟨hl, hh, hsur, hb⟩ := (covers_three h3.1 h3.2).mp hv
      have hn := toNat_ofNat (v := v) (by omega)
      rw [encodeChar_three (by omega) (by omega), hn, ← hb, UInt8.ofNat_toNat]
  by_cases h4 : 0xf0 ≤ b.toNat ∧ b.toNat ≤ 0xf4
  · refine .inl ⟨_, start_four h4.1 h4.2, Nat.le_add_left 1 2, ?_, ?_, ?_⟩
    · dsimp only
      split_ifs <;> decide
    · dsimp only
      split_ifs <;> decide
    · intro v hv
      obtain ⟨hl, hh, hb⟩ := (covers_four h4.1 h4.2).mp hv
      have hn := toNat_ofNat (v := v) (by omega)
      rw [encodeChar_four (by omega), hn, ← hb, UInt8.ofNat_toNat]
  · exact .inr (start_other (by omega) (by omega))

theorem pieces_encodeChar_append (c : Char) (rest : List UInt8) :
    pieces (String.utf8EncodeChar c ++ rest) = .char c :: pieces rest := by
  by_cases h : c.toNat < 0x80
  · have hb : (UInt8.ofNat c.toNat).toNat = c.toNat := by
      rw [UInt8.toNat_ofNat']
      omega
    rw [encodeChar_one h, List.cons_append, List.nil_append, pieces, piecesFrom, step,
      start_one (by omega), hb, Char.ofNat_toNat]
    rfl
  · obtain ⟨b, p, hs, howed, hcovers, he⟩ := exists_start_of_encodeChar (c := c) (by omega)
    rw [he, List.cons_append, pieces, piecesFrom, step, hs]
    simpa only [List.nil_append, Char.ofNat_toNat] using piecesFrom_tailBytes hcovers howed rest

theorem exists_eq_encodeChar_append {bytes : List UInt8} {c : Char} {ps : List Piece}
    (h : pieces bytes = .char c :: ps) :
    ∃ c' rest, bytes = String.utf8EncodeChar c' ++ rest := by
  cases bytes with
  | nil => simp [pieces, piecesFrom] at h
  | cons b rest =>
    rw [pieces, piecesFrom, step] at h
    rcases start_cases b with ⟨hb, -⟩ | ⟨p, hs, hp⟩ | hs
    · refine ⟨Char.ofNat b.toNat, rest, ?_⟩
      have hn := toNat_ofNat (v := b.toNat) (by omega)
      rw [encodeChar_one (by omega), hn, UInt8.ofNat_toNat]
      rfl
    · rw [hs, List.nil_append] at h
      obtain ⟨v, tail, hv, rfl⟩ := exists_covers_of_char hp.owed_pos hp.low_ge hp.high_le h
      exact ⟨Char.ofNat v, tail, by rw [hp.encodes v hv, List.cons_append]⟩
    · rw [hs] at h
      simp at h

theorem pieces_encode_append (text : String) (bytes : List UInt8) :
    pieces (encode text ++ bytes) = text.toList.map .char ++ pieces bytes := by
  rw [encode]
  induction text.toList with
  | nil => rfl
  | cons c cs ih =>
    rw [List.flatMap_cons, List.append_assoc, pieces_encodeChar_append, ih, List.map_cons,
      List.cons_append]

theorem pieces_encode (s : String) : pieces (encode s) = s.toList.map .char := by
  have hnil : pieces [] = [] := rfl
  have happend := pieces_encode_append s []
  rwa [List.append_nil, hnil, List.append_nil] at happend

theorem piecesFrom_some_ne_nil (p : Partial) (bytes : List UInt8) :
    piecesFrom (some p) bytes ≠ [] := by
  induction bytes generalizing p with
  | nil => simp [piecesFrom]
  | cons b rest ih =>
    by_cases hb : p.low ≤ b ∧ b ≤ p.high
    · by_cases howed : p.owed ≤ 1
      · simp [piecesFrom, step, hb, Partial.extend, howed]
      · simpa [piecesFrom, step, hb, Partial.extend, howed] using ih _
    · simp [piecesFrom, step, hb]

theorem pieces_cons_ne_nil (b : UInt8) (rest : List UInt8) : pieces (b :: rest) ≠ [] := by
  rw [pieces, piecesFrom, step]
  rcases start_cases b with ⟨-, hs⟩ | ⟨p, hs, -⟩ | hs
  · simp [hs]
  · rw [hs, List.nil_append]
    exact piecesFrom_some_ne_nil p rest
  · simp [hs]

theorem eq_flatMap_of_pieces {bytes : List UInt8} {cs : List Char}
    (h : pieces bytes = cs.map .char) : bytes = cs.flatMap String.utf8EncodeChar := by
  induction cs generalizing bytes with
  | nil =>
    cases bytes with
    | nil => rfl
    | cons b rest => exact absurd h (pieces_cons_ne_nil b rest)
  | cons c cs ih =>
    obtain ⟨c', rest, rfl⟩ := exists_eq_encodeChar_append h
    rw [pieces_encodeChar_append, List.map_cons] at h
    obtain ⟨hc, hrest⟩ := List.cons.inj h
    rw [Piece.char.inj hc, List.flatMap_cons, ← ih hrest]

theorem charsFrom_map_char (index : Nat) (cs : List Char) :
    charsFrom index (cs.map .char) = .ok cs := by
  induction cs generalizing index with
  | nil => rfl
  | cons c cs ih => rw [List.map_cons, charsFrom, ih, Except.map]

theorem eq_map_char_of_charsFrom {index : Nat} {ps : List Piece} {cs : List Char}
    (h : charsFrom index ps = .ok cs) : ps = cs.map .char := by
  induction ps generalizing index cs with
  | nil =>
    obtain rfl : [] = cs := Except.ok.inj h
    rfl
  | cons p ps ih =>
    cases p with
    | char c =>
      rw [charsFrom] at h
      cases hr : charsFrom (index + c.utf8Size) ps with
      | error flaw => simp [hr, Except.map] at h
      | ok more =>
        obtain rfl : c :: more = cs := Except.ok.inj (by simpa only [hr, Except.map] using h)
        rw [ih hr, List.map_cons]
    | illFormed bytes => simp [charsFrom] at h
    | truncated bytes => simp [charsFrom] at h

theorem decode_encode (s : String) : decode (encode s) = .ok s := by
  rw [decode, pieces_encode, charsFrom_map_char, Except.map, String.ofList_toList]

theorem decode_eq_ok_iff {bytes : List UInt8} {s : String} :
    decode bytes = .ok s ↔ bytes = encode s := by
  constructor
  · intro h
    rw [decode] at h
    cases hc : charsFrom 0 (pieces bytes) with
    | error flaw => simp [hc, Except.map] at h
    | ok cs =>
      obtain rfl : String.ofList cs = s := Except.ok.inj (by simpa only [hc, Except.map] using h)
      rw [eq_flatMap_of_pieces (eq_map_char_of_charsFrom hc), encode, String.toList_ofList]
  · rintro rfl
    exact decode_encode s

@[simp] theorem decodeLossy_encode (s : String) : decodeLossy (encode s) = s := by
  rw [decodeLossy, pieces_encode, List.map_map]
  have hshown : Piece.shown ∘ Piece.char = id := rfl
  rw [hshown, List.map_id, String.ofList_toList]

end DeviceDescription.Utf8
