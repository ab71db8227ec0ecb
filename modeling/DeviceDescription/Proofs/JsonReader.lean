import DeviceDescription.Json.Reader
import DeviceDescription.Proofs.JsonGrammar
import DeviceDescription.Proofs.Utf8
import Mathlib.Data.List.TakeWhile

/-!
# What the reader of JSON takes off a text

Whatever spells a value is read as that value, with what follows it left. Only a number needs to
be told apart from what follows. The rules of the grammar are gone through one by one, and that the
recursion is deep enough goes along with the rest: every rule but those of the lists takes a
character.
-/

namespace DeviceDescription.Json

/-! ### White space -/

theorem isSpace_iff {c : Char} :
    isSpace c = true ↔ c = ' ' ∨ c = '\n' ∨ c = '\t' ∨ c = '\r' := by
  simp only [isSpace, Bool.or_eq_true, beq_iff_eq]
  tauto

theorem allSpace_iff {w : List Char} : AllSpace w ↔ ∀ c ∈ w, isSpace c = true := by
  simp only [AllSpace, isSpace_iff]

theorem skipSpace_append {w : List Char} (h : AllSpace w) (cs : List Char) :
    skipSpace (w ++ cs) = skipSpace cs :=
  List.dropWhile_append_of_pos (allSpace_iff.mp h)

theorem isSpace_of_number {c : Char} (h : c.isDigit = true ∨ c = '-') : isSpace c = false := by
  rw [← Bool.not_eq_true, isSpace_iff]
  rintro (rfl | rfl | rfl | rfl) <;> simp at h

theorem skipSpace_cons {c : Char} (h : isSpace c = false) (cs : List Char) :
    skipSpace (c :: cs) = c :: cs :=
  List.dropWhile_cons_of_neg (by simp [h])

/-! ### Numbers -/

/-- What follows does not go on with a number. -/
def Apart (rest : List Char) : Prop :=
  ∀ c, rest.head? = some c → c.isDigit = false ∧ c ≠ '.' ∧ c ≠ 'e' ∧ c ≠ 'E'

theorem digits?_append {w rest : List Char} (h : IsDigits w)
    (hrest : ∀ c, rest.head? = some c → c.isDigit = false) :
    digits? (w ++ rest) = some (w, rest) := by
  obtain ⟨hne, hall⟩ := h
  obtain ⟨c, w, rfl⟩ := List.exists_cons_of_ne_nil hne
  have htake : rest.takeWhile Char.isDigit = [] ∧ rest.dropWhile Char.isDigit = rest := by
    cases rest with
    | nil => exact ⟨rfl, rfl⟩
    | cons d rest => simp [hrest d rfl]
  rw [digits?, List.takeWhile_append_of_pos hall, List.dropWhile_append_of_pos hall, htake.1,
    htake.2, List.append_nil]

theorem isDigits_toDigits (n : Nat) : IsDigits (Nat.toDigits 10 n) :=
  ⟨Nat.toDigits_ne_nil, fun _ hc => Nat.isDigit_of_mem_toDigits (by decide) (by decide) hc⟩

theorem exists_cons_of_toDigits (n : Nat) (rest : List Char) :
    ∃ c more, Nat.toDigits 10 n ++ rest = c :: more ∧ c.isDigit = true := by
  obtain ⟨c, w, hw⟩ := List.exists_cons_of_ne_nil (Nat.toDigits_ne_nil (n := n) (b := 10))
  refine ⟨c, w ++ rest, by rw [hw]; rfl, (isDigits_toDigits n).2 c ?_⟩
  rw [hw]
  exact List.mem_cons_self

theorem head?_toDigits_ne {n : Nat} (h : 0 < n) : (Nat.toDigits 10 n).head? ≠ some '0' := by
  induction n using Nat.strongRecOn with
  | _ n ih =>
    by_cases hn : n < 10
    · rw [Nat.toDigits_of_lt_base hn]
      simp
      omega
    · rw [Nat.toDigits_of_base_le (by decide) (by omega),
        List.head?_append, Option.or_of_isSome (by simp)]
      exact ih (n / 10) (by omega) (by omega)

theorem whole?_append (n : Nat) {rest : List Char}
    (hrest : ∀ c, rest.head? = some c → c.isDigit = false) :
    whole? (Nat.toDigits 10 n ++ rest) = some (Nat.toDigits 10 n, rest) := by
  by_cases hn : n = 0
  · subst hn
    rfl
  · have hzero : ∀ more, Nat.toDigits 10 n ++ rest = '0' :: more → False := by
      intro more heq
      apply head?_toDigits_ne (Nat.pos_of_ne_zero hn)
      have hhead := congrArg List.head? heq
      rwa [List.head?_append, Option.or_of_isSome (by simp)] at hhead
    rw [whole?.eq_2 _ hzero]
    exact digits?_append (isDigits_toDigits n) hrest

theorem naturalOfDigits_toDigits (n : Nat) : naturalOfDigits (Nat.toDigits 10 n) = n := by
  rw [naturalOfDigits, ← Nat.ofDigitChars_eq_foldl, Nat.ofDigitChars_ten_toDigits]

theorem skipFraction_append {fraction rest : List Char} (h : IsFraction fraction)
    (hrest : ∀ c, rest.head? = some c → c.isDigit = false ∧ c ≠ '.') :
    skipFraction (fraction ++ rest) = some rest := by
  cases h with
  | absent =>
    have hpoint : ∀ more, rest = '.' :: more → False := by
      rintro more rfl
      exact (hrest '.' rfl).2 rfl
    exact skipFraction.eq_2 rest hpoint
  | digits hw =>
    rw [List.cons_append, skipFraction, digits?_append hw fun c hc => (hrest c hc).1]
    rfl

theorem skipExponent_append {exponent rest : List Char} (h : IsExponent exponent)
    (hrest : Apart rest) : skipExponent (exponent ++ rest) = some rest := by
  cases h with
  | absent =>
    cases rest with
    | nil => rfl
    | cons c rest =>
      obtain ⟨-, -, he, hE⟩ := hrest c rfl
      simp [skipExponent, he, hE]
  | @digits e sign w he hsign hw =>
    have hread := digits?_append hw fun c hc => (hrest c hc).1
    rcases hsign with rfl | rfl | rfl
    · have hsign : ∀ c, (w ++ rest).head? = some c → c.isDigit = true := by
        obtain ⟨hne, hall⟩ := hw
        obtain ⟨d, w, rfl⟩ := List.exists_cons_of_ne_nil hne
        intro c hc
        obtain rfl := Option.some.inj hc
        exact hall d List.mem_cons_self
      rw [List.nil_append, List.cons_append, skipExponent, if_pos he, hread]
      · rfl
      · intro more heq
        exact absurd (hsign '+' (by rw [heq]; rfl)) (by decide)
      · intro more heq
        exact absurd (hsign '-' (by rw [heq]; rfl)) (by decide)
    · simp [skipExponent, he, hread]
    · simp [skipExponent, he, hread]

/-- What follows the whole part of a number and has a fraction or an exponent. -/
theorem head?_scale {fraction exponent : List Char} (hf : IsFraction fraction)
    (he : IsExponent exponent) (hne : fraction ++ exponent ≠ []) (rest : List Char) :
    ∃ c, (fraction ++ (exponent ++ rest)).head? = some c ∧ c.isDigit = false ∧
      (c = '.' ∨ c = 'e' ∨ c = 'E') := by
  cases hf with
  | digits => exact ⟨'.', rfl, rfl, .inl rfl⟩
  | absent =>
    cases he with
    | absent => exact absurd rfl hne
    | digits he =>
      rcases he with rfl | rfl
      · exact ⟨'e', rfl, rfl, .inr (.inl rfl)⟩
      · exact ⟨'E', rfl, rfl, .inr (.inr rfl)⟩

theorem skip_scale {fraction exponent rest : List Char} (hf : IsFraction fraction)
    (he : IsExponent exponent) (hrest : Apart rest) :
    (skipFraction (fraction ++ (exponent ++ rest))).bind skipExponent = some rest := by
  rw [skipFraction_append hf]
  · exact skipExponent_append he hrest
  · intro c hc
    cases he with
    | absent => exact ⟨(hrest c hc).1, (hrest c hc).2.1⟩
    | digits he =>
      obtain rfl := Option.some.inj hc
      rcases he with rfl | rfl <;> decide

theorem number?_toDigits (n : Nat) {rest : List Char}
    (hrest : ∀ c, rest.head? = some c → c.isDigit = false) :
    number? (Nat.toDigits 10 n ++ rest) =
      if isScaled rest then
        ((skipFraction rest).bind skipExponent).map fun rest => (.otherNumber, rest)
      else some (.natural n, rest) := by
  have hminus : ∀ more, Nat.toDigits 10 n ++ rest = '-' :: more → False := by
    intro more heq
    obtain ⟨c, w, hw, hc⟩ := exists_cons_of_toDigits n rest
    rw [hw] at heq
    rw [(List.cons.inj heq).1] at hc
    cases hc
  rw [number?.eq_2 _ hminus, whole?_append n hrest]
  simp only [Option.bind_some, naturalOfDigits_toDigits]

theorem number?_natural (n : Nat) {rest : List Char} (hrest : Apart rest) :
    number? (Nat.toDigits 10 n ++ rest) = some (.natural n, rest) := by
  have hplain : isScaled rest = false := by
    cases rest with
    | nil => rfl
    | cons c rest =>
      obtain ⟨-, hpoint, he, hE⟩ := hrest c rfl
      simp [isScaled, hpoint, he, hE]
  rw [number?_toDigits n fun c hc => (hrest c hc).1, hplain]
  rfl

theorem number?_scaled (n : Nat) {fraction exponent rest : List Char} (hf : IsFraction fraction)
    (he : IsExponent exponent) (hne : fraction ++ exponent ≠ []) (hrest : Apart rest) :
    number? (Nat.toDigits 10 n ++ (fraction ++ (exponent ++ rest))) =
      some (.otherNumber, rest) := by
  obtain ⟨c, hhead, hdigit, hc⟩ := head?_scale hf he hne rest
  have hscaled : isScaled (fraction ++ (exponent ++ rest)) = true := by
    obtain ⟨more, heq⟩ := List.head?_eq_some_iff.mp hhead
    rw [heq]
    rcases hc with rfl | rfl | rfl <;> rfl
  have hapart : ∀ d, (fraction ++ (exponent ++ rest)).head? = some d → d.isDigit = false := by
    intro d hd
    rw [hhead] at hd
    obtain rfl := Option.some.inj hd
    exact hdigit
  rw [number?_toDigits n hapart, hscaled, skip_scale hf he hrest]
  rfl

theorem number?_negative (n : Nat) {fraction exponent rest : List Char} (hf : IsFraction fraction)
    (he : IsExponent exponent) (hrest : Apart rest) :
    number? ('-' :: (Nat.toDigits 10 n ++ (fraction ++ (exponent ++ rest)))) =
      some (.otherNumber, rest) := by
  have hapart : ∀ d, (fraction ++ (exponent ++ rest)).head? = some d → d.isDigit = false := by
    intro d hd
    by_cases hne : fraction ++ exponent = []
    · obtain ⟨rfl, rfl⟩ := List.append_eq_nil_iff.mp hne
      exact (hrest d hd).1
    · obtain ⟨c, hhead, hdigit, -⟩ := head?_scale hf he hne rest
      rw [hhead] at hd
      obtain rfl := Option.some.inj hd
      exact hdigit
  rw [number?, whole?_append n hapart]
  simp only [Option.bind_some]
  rw [skip_scale hf he hrest]
  rfl

/-! ### Strings -/

theorem hexValue?_of_isHexDigit {c : Char} {n : Nat} (h : IsHexDigit c n) :
    hexValue? c = some n := by
  obtain ⟨hn, hc⟩ := h
  have hall : ∀ k < 16,
      hexValue? k.digitChar = some k ∧ hexValue? k.digitChar.toUpper = some k := by decide
  obtain ⟨hlower, hupper⟩ := hall n hn
  rcases hc with rfl | rfl
  · exact hlower
  · exact hupper

/-- The reader of a string takes one part after the other. -/
theorem units?_append {part : List Char} {n : Nat} (h : SpellsUnit part n) (sofar : List Nat)
    (rest : List Char) : units? sofar (part ++ rest) = units? (n :: sofar) rest := by
  cases h with
  | @plain c hc hquote hback =>
    rw [List.singleton_append, units?.eq_5 sofar c rest hquote (fun _ _ _ _ _ h => absurd h hback)
      (fun _ _ h => absurd h hback), if_neg (not_or.mpr ⟨by omega, hback⟩)]
  | @letter e c he =>
    have hall : ∀ pair ∈ letterEscapes, escaped? pair.1 = some pair.2 ∧ pair.1 ≠ 'u' := by decide
    obtain ⟨hescaped, hne⟩ := hall _ he
    rw [List.cons_append, List.cons_append, List.nil_append,
      units?.eq_4 sofar e rest fun _ _ _ _ _ h => absurd h hne, hescaped]
  | @number a b c d i j k l ha hb hc hd =>
    have hunit : unit? a b c d = some (0x1000 * i + 0x100 * j + 0x10 * k + l) := by
      simp only [unit?, hexValue?_of_isHexDigit ha, hexValue?_of_isHexDigit hb,
        hexValue?_of_isHexDigit hc, hexValue?_of_isHexDigit hd, Option.bind_eq_bind,
        Option.bind_some, Option.some.injEq]
      omega
    simp only [List.cons_append, List.nil_append, units?.eq_3, hunit]

theorem units?_of_spells {inner : List Char} {units : List Nat} (h : SpellsUnits inner units)
    (sofar : List Nat) (rest : List Char) :
    units? sofar (inner ++ '"' :: rest) = some (sofar.reverse ++ units, rest) := by
  induction h generalizing sofar with
  | nil => simp [units?]
  | cons hpart _ ih =>
    rw [List.append_assoc, units?_append hpart, ih]
    simp

theorem toNat_lt_of_spells {inner : List Char} {units : List Nat} (h : SpellsUnits inner units) :
    ∀ n ∈ units, n < 0x110000 := by
  induction h with
  | nil => simp
  | cons hpart _ ih =>
    refine List.forall_mem_cons.mpr ⟨?_, ih⟩
    cases hpart with
    | @plain c => have := Utf8.toNat_valid c; omega
    | @letter e c => have := Utf8.toNat_valid c; omega
    | number ha hb hc hd =>
      have := ha.1
      have := hb.1
      have := hc.1
      have := hd.1
      omega

theorem charsOfUnits?_cons {n : Nat} (hhigh : isHighSurrogate n = false)
    (hlow : isLowSurrogate n = false) (units : List Nat) :
    charsOfUnits? (n :: units) = (charsOfUnits? units).map (Char.ofNat n :: ·) := by
  rw [charsOfUnits?.eq_def]
  simp [hhigh, hlow]

theorem charsOfUnits?_of_denotes {units : List Nat} {cs : List Char} (h : Denotes16 units cs) :
    charsOfUnits? units = some cs := by
  induction h with
  | nil => rfl
  | char c _ ih =>
    have hvalid := Utf8.toNat_valid c
    have hhigh : isHighSurrogate c.toNat = false := by
      simp only [isHighSurrogate, Bool.and_eq_false_iff, decide_eq_false_iff_not]
      omega
    have hlow : isLowSurrogate c.toNat = false := by
      simp only [isLowSurrogate, Bool.and_eq_false_iff, decide_eq_false_iff_not]
      omega
    rw [charsOfUnits?_cons hhigh hlow, ih, Char.ofNat_toNat]
    rfl
  | @pair high low c units cs hh hl hc _ ih =>
    have hhigh : isHighSurrogate (0xd800 + high) = true := by
      simp only [isHighSurrogate, Bool.and_eq_true, decide_eq_true_eq]
      omega
    have hlow : isLowSurrogate (0xdc00 + low) = true := by
      simp only [isLowSurrogate, Bool.and_eq_true, decide_eq_true_eq]
      omega
    have hchar : 0x10000 + (0xd800 + high - 0xd800) * 0x400 + (0xdc00 + low - 0xdc00) =
        c.toNat := by omega
    rw [charsOfUnits?, if_pos hhigh, if_pos hlow, ih, hchar, Char.ofNat_toNat]
    rfl

theorem denotes_of_charsOfUnits? {units : List Nat} {cs : List Char}
    (hunits : ∀ n ∈ units, n < 0x110000) (h : charsOfUnits? units = some cs) :
    Denotes16 units cs := by
  induction units using charsOfUnits?.induct generalizing cs with
  | case1 =>
    obtain rfl := Option.some.inj h
    exact .nil
  | case2 n hhigh m rest hlow ih =>
    rw [charsOfUnits?, if_pos hhigh, if_pos hlow, Option.map_eq_some_iff] at h
    obtain ⟨more, hmore, rfl⟩ := h
    have hrest := ih (fun k hk => hunits k (by simp [hk])) hmore
    simp only [isHighSurrogate, isLowSurrogate, Bool.and_eq_true, decide_eq_true_eq] at hhigh hlow
    have hn : n = 0xd800 + (n - 0xd800) := by omega
    have hm : m = 0xdc00 + (m - 0xdc00) := by omega
    rw [hn, hm]
    refine .pair _ (by omega) (by omega) ?_ hrest
    rw [Utf8.toNat_ofNat (by omega)]
    omega
  | case3 n hhigh m rest hlow =>
    rw [charsOfUnits?, if_pos hhigh, if_neg hlow] at h
    cases h
  | case4 n hhigh =>
    rw [charsOfUnits?, if_pos hhigh] at h
    cases h
  | case5 n rest hhigh hlow =>
    rw [charsOfUnits?.eq_def] at h
    simp [hhigh, hlow] at h
  | case6 n rest hhigh hlow ih =>
    rw [Bool.not_eq_true] at hhigh hlow
    rw [charsOfUnits?_cons hhigh hlow, Option.map_eq_some_iff] at h
    obtain ⟨more, hmore, rfl⟩ := h
    have hn : n < 0x110000 := hunits n List.mem_cons_self
    have hrest := ih (fun k hk => hunits k (List.mem_cons_of_mem n hk)) hmore
    simp only [isHighSurrogate, isLowSurrogate, Bool.and_eq_false_iff,
      decide_eq_false_iff_not] at hhigh hlow
    have hchar : (Char.ofNat n).toNat = n := Utf8.toNat_ofNat (by omega)
    have hdenotes := Denotes16.char (Char.ofNat n) hrest
    rwa [hchar] at hdenotes

theorem string?_of_spells {inner : List Char} {units : List Nat} (h : SpellsUnits inner units)
    (rest : List Char) :
    string? (inner ++ '"' :: rest) = some ((charsOfUnits? units).map String.ofList, rest) := by
  rw [string?, units?_of_spells h]
  rfl

/-- A string is read as the text it stands for, or as none. -/
theorem SpellsString.reads {text : List Char} {s : Option String} (h : SpellsString text s) :
    ∃ inner, text = '"' :: inner ∧ ∀ rest, string? (inner ++ rest) = some (s, rest) := by
  cases h with
  | @text inner units s hunits hdenotes =>
    refine ⟨inner ++ ['"'], rfl, ?_⟩
    intro rest
    rw [List.append_assoc, List.singleton_append, string?_of_spells hunits,
      charsOfUnits?_of_denotes hdenotes, Option.map_some, String.ofList_toList]
  | @noText inner units hunits hnone =>
    refine ⟨inner ++ ['"'], rfl, ?_⟩
    intro rest
    have hchars : charsOfUnits? units = none := by
      rw [Option.eq_none_iff_forall_ne_some]
      intro cs hcs
      exact hnone cs (denotes_of_charsOfUnits? (toNat_lt_of_spells hunits) hcs)
    rw [List.append_assoc, List.singleton_append, string?_of_spells hunits, hchars]
    rfl

/-! ### Values -/

theorem value?_skipSpace (bound : Nat) {w : List Char} (h : AllSpace w) (cs : List Char) :
    value? bound (w ++ cs) = value? bound cs := by
  cases bound with
  | zero => rfl
  | succ bound => rw [value?, value?, skipSpace_append h]

theorem value?_number (bound : Nat) {c : Char} (hc : c.isDigit = true ∨ c = '-')
    (cs : List Char) : value? (bound + 1) (c :: cs) = number? (c :: cs) := by
  rw [value?, skipSpace_cons (isSpace_of_number hc)]
  split
  all_goals simp_all

theorem value?_string (bound : Nat) (cs : List Char) :
    value? (bound + 1) ('"' :: cs) = (string? cs).map fun (text, rest) => (.string text, rest) := by
  rw [value?, skipSpace_cons (by decide)]
  rfl

theorem value?_array (bound : Nat) {c : Char} {cs more : List Char} (h : skipSpace cs = c :: more)
    (hc : c ≠ ']') :
    value? (bound + 1) ('[' :: cs) =
      (items? bound cs).map fun (items, rest) => (.array items, rest) := by
  rw [value?, skipSpace_cons (by decide)]
  simp only [h]
  split
  · next heq => exact absurd (List.cons.inj heq).1 hc
  · rfl

theorem value?_object (bound : Nat) {c : Char} {cs more : List Char} (h : skipSpace cs = c :: more)
    (hc : c ≠ '\x7d') :
    value? (bound + 1) ('\x7b' :: cs) =
      (members? bound cs).map fun (members, rest) => (.object members, rest) := by
  rw [value?, skipSpace_cons (by decide)]
  simp only [h]
  split
  · next heq => exact absurd (List.cons.inj heq).1 hc
  · rfl

/-- A character that a value may start with. -/
def Starts (c : Char) : Prop := c.isDigit = true ∨ c ∈ ['-', 'n', 't', 'f', '"', '[', '\x7b']

theorem Starts.isSpace_eq {c : Char} (h : Starts c) : isSpace c = false := by
  rcases h with h | h
  · exact isSpace_of_number (.inl h)
  · simp only [List.mem_cons, List.not_mem_nil, or_false] at h
    rcases h with rfl | rfl | rfl | rfl | rfl | rfl | rfl <;> rfl

theorem Starts.ne_bracket {c : Char} (h : Starts c) : c ≠ ']' := by
  rintro rfl
  exact absurd h (by simp [Starts])

theorem Spells.exists_starts {text : List Char} {value : Json} (h : Spells text (.value value)) :
    ∃ c more, text = c :: more ∧ Starts c := by
  cases h with
  | natural n =>
    obtain ⟨c, more, heq, hc⟩ := exists_cons_of_toDigits n []
    exact ⟨c, more, by rw [← heq, List.append_nil], .inl hc⟩
  | scaled hf he hne =>
    obtain ⟨c, more, heq, hc⟩ := exists_cons_of_toDigits _ _
    exact ⟨c, more, heq, .inl hc⟩
  | string hs =>
    obtain ⟨inner, rfl, -⟩ := hs.reads
    exact ⟨_, _, rfl, .inr (by simp)⟩
  | null | true | false | negative | emptyArray | array | emptyObject | object =>
    exact ⟨_, _, rfl, .inr (by simp)⟩

theorem Spells.skipSpace_element {text : List Char} {value : Json}
    (h : Spells text (.element value)) (rest : List Char) :
    ∃ c more, skipSpace (text ++ rest) = c :: more ∧ Starts c := by
  cases h with
  | @element before text after _ hbefore hvalue _ =>
    obtain ⟨c, more, rfl, hc⟩ := hvalue.exists_starts
    refine ⟨c, more ++ after ++ rest, ?_, hc⟩
    rw [List.append_assoc, skipSpace_append hbefore, List.cons_append, List.cons_append,
      skipSpace_cons hc.isSpace_eq]

theorem Spells.skipSpace_items {text : List Char} {items : List Json}
    (h : Spells text (.items items)) (rest : List Char) :
    ∃ c more, skipSpace (text ++ rest) = c :: more ∧ Starts c := by
  cases h with
  | lastItem helement => exact helement.skipSpace_element rest
  | moreItems helement _ =>
    rw [List.append_assoc]
    exact helement.skipSpace_element _

theorem Spells.skipSpace_member {text : List Char} {member : Option String × Json}
    (h : Spells text (.member member)) (rest : List Char) :
    ∃ more, skipSpace (text ++ rest) = '"' :: more := by
  cases h with
  | @member before name after text _ _ hbefore hname _ _ =>
    obtain ⟨inner, rfl, -⟩ := hname.reads
    refine ⟨inner ++ (after ++ ':' :: text) ++ rest, ?_⟩
    rw [List.append_assoc, skipSpace_append hbefore, List.cons_append, List.cons_append,
      skipSpace_cons (by decide)]

theorem Spells.skipSpace_members {text : List Char} {members : List (Option String × Json)}
    (h : Spells text (.members members)) (rest : List Char) :
    ∃ more, skipSpace (text ++ rest) = '"' :: more := by
  cases h with
  | lastMember hmember => exact hmember.skipSpace_member rest
  | moreMembers hmember _ =>
    rw [List.append_assoc]
    exact hmember.skipSpace_member _

/-! ### Texts -/

def isNumber : Json → Bool
  | .natural _ | .otherNumber => true
  | .null | .bool _ | .string _ | .array _ | .object _ => false

/-- What follows neither goes on with a number nor starts with white space. -/
def Closed (rest : List Char) : Prop :=
  Apart rest ∧ ∀ c, rest.head? = some c → isSpace c = false

theorem Closed.of_mem {c : Char} (h : c ∈ [',', ']', '\x7d']) (rest : List Char) :
    Closed (c :: rest) := by
  simp only [List.mem_cons, List.not_mem_nil, or_false] at h
  refine ⟨?_, ?_⟩ <;> rintro d ⟨⟩
  · rcases h with rfl | rfl | rfl <;> simp
  · rcases h with rfl | rfl | rfl <;> rfl

theorem Closed.apart {w rest : List Char} (h : Closed rest) (hw : AllSpace w) :
    Apart (w ++ rest) := by
  cases w with
  | nil => exact h.1
  | cons c w =>
    rintro d ⟨⟩
    rcases hw c List.mem_cons_self with rfl | rfl | rfl | rfl <;> decide

theorem Closed.skipSpace_eq {w rest : List Char} (h : Closed rest) (hw : AllSpace w) :
    skipSpace (w ++ rest) = rest := by
  rw [skipSpace_append hw]
  cases rest with
  | nil => rfl
  | cons c rest => exact skipSpace_cons (h.2 c rfl) rest

/-- What is read of an object once a member and white space have been taken off. -/
def membersAfter (bound : Nat) (member : Option String × Json) :
    List Char → Option (List (Option String × Json) × List Char)
  | ',' :: rest => (members? bound rest).map fun (members, rest) => (member :: members, rest)
  | '\x7d' :: rest => some ([member], rest)
  | _ => none

theorem members?_member {bound : Nat} {before after inner text rest : List Char}
    {name : Option String} {value : Json} (hbefore : AllSpace before) (hafter : AllSpace after)
    (hname : string? (inner ++ (after ++ ':' :: text)) = some (name, after ++ ':' :: text))
    (hvalue : value? bound text = some (value, rest)) :
    members? (bound + 1) (before ++ '"' :: (inner ++ (after ++ ':' :: text))) =
      membersAfter bound (name, value) (skipSpace rest) := by
  rw [members?, skipSpace_append hbefore, skipSpace_cons (by decide)]
  simp only [hname, Option.bind_eq_bind, Option.bind_some, skipSpace_append hafter]
  rw [skipSpace_cons (by decide)]
  simp only [hvalue, Option.bind_some]
  rfl

/-- The reader takes the phrase off the text. -/
def Reads (text : List Char) : Phrase → Prop
  | .value value => ∀ bound rest, 2 * text.length ≤ bound →
      (value.isNumber = true → Apart rest) → value? bound (text ++ rest) = some (value, rest)
  | .element value => ∀ bound rest, 2 * text.length ≤ bound → Closed rest →
      ∃ after, value? bound (text ++ rest) = some (value, after) ∧ skipSpace after = rest
  | .items items => ∀ bound rest, 2 * text.length + 1 ≤ bound →
      items? bound (text ++ ']' :: rest) = some (items, rest)
  | .member member => ∀ bound rest, 2 * text.length ≤ bound →
      members? (bound + 1) (text ++ '\x7d' :: rest) = some ([member], rest) ∧
        members? (bound + 1) (text ++ ',' :: rest) =
          (members? bound rest).map fun (members, rest) => (member :: members, rest)
  | .members members => ∀ bound rest, 2 * text.length + 1 ≤ bound →
      members? bound (text ++ '\x7d' :: rest) = some (members, rest)

theorem reads_value {text : List Char} {value : Json} (hne : text ≠ [])
    (h : ∀ bound rest, 2 * text.length ≤ bound + 1 → (value.isNumber = true → Apart rest) →
      value? (bound + 1) (text ++ rest) = some (value, rest)) : Reads text (.value value) := by
  intro bound rest hbound hrest
  have hlength := List.length_pos_iff.mpr hne
  cases bound with
  | zero => omega
  | succ bound => exact h bound rest hbound hrest

/-- A text is read as what it spells. Two levels of the recursion for each character are enough: the
reader of a list goes down one level without taking any, to read an item. -/
theorem Spells.reads {text : List Char} {phrase : Phrase} (h : Spells text phrase) :
    Reads text phrase := by
  induction h with
  | null | true | false =>
    apply reads_value (List.cons_ne_nil _ _)
    intro bound rest _ _
    rw [value?, List.cons_append, skipSpace_cons (by decide)]
    rfl
  | natural n =>
    apply reads_value Nat.toDigits_ne_nil
    intro bound rest _ hrest
    obtain ⟨c, more, heq, hc⟩ := exists_cons_of_toDigits n rest
    rw [heq, value?_number bound (.inl hc), ← heq]
    exact number?_natural n (hrest rfl)
  | @negative n fraction exponent hf he =>
    apply reads_value (List.cons_ne_nil _ _)
    intro bound rest _ hrest
    rw [List.cons_append, value?_number bound (.inr rfl), List.append_assoc, List.append_assoc]
    exact number?_negative n hf he (hrest rfl)
  | @scaled n fraction exponent hf he hne =>
    apply reads_value (List.append_ne_nil_of_left_ne_nil Nat.toDigits_ne_nil _)
    intro bound rest _ hrest
    obtain ⟨c, more, heq, hc⟩ := exists_cons_of_toDigits n (fraction ++ (exponent ++ rest))
    rw [List.append_assoc, List.append_assoc, heq, value?_number bound (.inl hc), ← heq]
    exact number?_scaled n hf he hne (hrest rfl)
  | @string text s hs =>
    obtain ⟨inner, rfl, hread⟩ := hs.reads
    apply reads_value (List.cons_ne_nil _ _)
    intro bound rest _ _
    rw [List.cons_append, value?_string, hread]
    rfl
  | @emptyArray w hw | @emptyObject w hw =>
    apply reads_value (List.cons_ne_nil _ _)
    intro bound rest _ _
    rw [value?, List.cons_append, skipSpace_cons (by decide)]
    simp only [List.append_assoc, List.cons_append, List.nil_append, skipSpace_append hw]
    rw [skipSpace_cons (by decide)]
    rfl
  | @array inner items hitems ih =>
    apply reads_value (List.cons_ne_nil _ _)
    intro bound rest hbound _
    simp only [List.length_cons, List.length_append, List.length_nil] at hbound
    obtain ⟨c, more, hskip, hc⟩ := hitems.skipSpace_items (']' :: rest)
    rw [List.cons_append, List.append_assoc, List.singleton_append,
      value?_array bound hskip hc.ne_bracket, ih bound rest (by omega)]
    rfl
  | @object inner members hmembers ih =>
    apply reads_value (List.cons_ne_nil _ _)
    intro bound rest hbound _
    simp only [List.length_cons, List.length_append, List.length_nil] at hbound
    obtain ⟨more, hskip⟩ := hmembers.skipSpace_members ('\x7d' :: rest)
    rw [List.cons_append, List.append_assoc, List.singleton_append,
      value?_object bound hskip (by decide), ih bound rest (by omega)]
    rfl
  | @element before text after value hbefore _ hafter ih =>
    intro bound rest hbound hclosed
    simp only [List.length_append] at hbound
    refine ⟨after ++ rest, ?_, hclosed.skipSpace_eq hafter⟩
    rw [List.append_assoc, value?_skipSpace bound hbefore, List.append_assoc]
    exact ih bound (after ++ rest) (by omega) fun _ => hclosed.apart hafter
  | @lastItem text value _ ih =>
    intro bound rest hbound
    cases bound with
    | zero => omega
    | succ bound =>
      obtain ⟨after, hvalue, hskip⟩ := ih bound (']' :: rest) (by omega) (.of_mem (by simp) rest)
      rw [items?, hvalue]
      simp only [Option.bind_eq_bind, Option.bind_some, hskip]
  | @moreItems text more value items _ _ ihFirst ihRest =>
    intro bound rest hbound
    simp only [List.length_append, List.length_cons] at hbound
    cases bound with
    | zero => omega
    | succ bound =>
      obtain ⟨after, hvalue, hskip⟩ := ihFirst bound (',' :: (more ++ ']' :: rest)) (by omega)
        (.of_mem (by simp) _)
      rw [List.append_assoc, List.cons_append, items?, hvalue]
      simp only [Option.bind_eq_bind, Option.bind_some, hskip]
      rw [ihRest bound rest (by omega)]
      rfl
  | @member before name after text name? value hbefore hname hafter _ ih =>
    intro bound rest hbound
    simp only [List.length_append, List.length_cons] at hbound
    obtain ⟨inner, rfl, hread⟩ := hname.reads
    have hmember : ∀ tail, Closed tail →
        members? (bound + 1) (before ++ ('"' :: inner ++ (after ++ ':' :: text)) ++ tail) =
          membersAfter bound (name?, value) tail := by
      intro tail htail
      obtain ⟨rest', hvalue, hskip⟩ := ih bound tail (by omega) htail
      have htext : before ++ ('"' :: inner ++ (after ++ ':' :: text)) ++ tail =
          before ++ '"' :: (inner ++ (after ++ ':' :: (text ++ tail))) := by simp
      rw [htext, members?_member hbefore hafter (hread _) hvalue, hskip]
    rw [hmember _ (.of_mem (by simp) rest), hmember _ (.of_mem (by simp) rest)]
    exact ⟨rfl, rfl⟩
  | @lastMember text member _ ih =>
    intro bound rest hbound
    cases bound with
    | zero => omega
    | succ bound => exact (ih bound rest (by omega)).1
  | @moreMembers text more member members _ _ ihFirst ihRest =>
    intro bound rest hbound
    simp only [List.length_append, List.length_cons] at hbound
    cases bound with
    | zero => omega
    | succ bound =>
      rw [List.append_assoc, List.cons_append, (ihFirst bound _ (by omega)).2,
        ihRest bound rest (by omega)]
      rfl

/-- A text that spells a value, with white space around it, is read as that value. -/
theorem parse?_of_spells {s : String} {value : Json} (h : Spells s.toList (.element value)) :
    parse? s = some value := by
  have hclosed : Closed [] := ⟨by rintro c ⟨⟩, by rintro c ⟨⟩⟩
  obtain ⟨after, hvalue, hskip⟩ := h.reads (2 * s.toList.length + 2) [] (by omega) hclosed
  rw [List.append_nil] at hvalue
  rw [parse?, hvalue]
  simp [hskip]

/-- No value is read where something other than white space follows an object. -/
theorem parse?_of_after_object {s : String} {before object after : List Char}
    {members : List (Option String × Json)} (hs : s.toList = before ++ (object ++ after))
    (hbefore : AllSpace before) (h : Spells object (.value (.object members)))
    (hafter : ¬ AllSpace after) : parse? s = none := by
  have hlength : object.length ≤ s.toList.length := by
    rw [hs, List.length_append, List.length_append]
    omega
  have hvalue := h.reads (2 * s.toList.length + 2) after (by omega) (by simp [isNumber])
  have hrest : skipSpace after ≠ [] := by
    rw [skipSpace, Ne, List.dropWhile_eq_nil_iff, ← allSpace_iff]
    exact hafter
  rw [← value?_skipSpace _ hbefore, ← hs] at hvalue
  rw [parse?, hvalue]
  simp [hrest]

end DeviceDescription.Json
