import DeviceDescription.Proofs.Layout
import DeviceDescription.Text.Trim

/-!
# What trimming leaves

A text is blanks, a part with no blank at either end, and blanks again. Trimming returns that part
and counts the blanks before and behind it, whichever end it starts from. The order of the ends can
only be told from a text that is blank throughout, all of which the first one takes.
-/

namespace DeviceDescription

/-- There is no blank at either end. -/
structure IsStripped (chars : List Char) : Prop where
  head : ∀ c, chars.head? = some c → isBlank c = false
  last : ∀ c, chars.getLast? = some c → isBlank c = false

/-- The characters are blanks, a part without blanks at its ends, and blanks. If they are blank
throughout, they all stand before the part. -/
structure Strips (chars leading rest trailing : List Char) : Prop where
  parts : chars = leading ++ rest ++ trailing
  leading_blank : AllBlank leading
  trailing_blank : AllBlank trailing
  stripped : IsStripped rest
  trailing_nil : rest = [] → trailing = []

theorem allBlank_nil : AllBlank [] := by simp [AllBlank]

theorem AllBlank.reverse {w : List Char} (h : AllBlank w) : AllBlank w.reverse :=
  fun c hc => h c (List.mem_reverse.mp hc)

theorem allBlank_takeWhile (chars : List Char) : AllBlank (chars.takeWhile isBlank) :=
  fun _ hc => List.mem_takeWhile_imp hc

theorem isBlank_of_head?_dropWhile {chars : List Char} {c : Char}
    (h : (chars.dropWhile isBlank).head? = some c) : isBlank c = false := by
  have hnot := List.head?_dropWhile_not isBlank chars
  rwa [h] at hnot

section Ends

variable {blanks rest : List Char}

theorem takeWhile_blanks (h : AllBlank blanks)
    (hrest : ∀ c, rest.head? = some c → isBlank c = false) :
    (blanks ++ rest).takeWhile isBlank = blanks := by
  rw [List.takeWhile_append_of_pos h]
  cases rest with
  | nil => exact List.append_nil blanks
  | cons c rest => rw [List.takeWhile_cons_of_neg (by simp [hrest c rfl]), List.append_nil]

theorem dropWhile_blanks (h : AllBlank blanks)
    (hrest : ∀ c, rest.head? = some c → isBlank c = false) :
    (blanks ++ rest).dropWhile isBlank = rest := by
  rw [List.dropWhile_append_of_pos h]
  cases rest with
  | nil => rfl
  | cons c rest => exact List.dropWhile_cons_of_neg (by simp [hrest c rfl])

theorem trimStart_of_append {s : String} (hs : s.toList = blanks ++ rest) (h : AllBlank blanks)
    (hrest : ∀ c, rest.head? = some c → isBlank c = false) :
    trimStart s = (String.ofList rest, blanks.length) := by
  rw [trimStart, hs, takeWhile_blanks h hrest, dropWhile_blanks h hrest]

theorem trimEnd_of_append {s : String} (hs : s.toList = rest ++ blanks) (h : AllBlank blanks)
    (hrest : ∀ c, rest.getLast? = some c → isBlank c = false) :
    trimEnd s = (String.ofList rest, blanks.length) := by
  have hhead : ∀ c, rest.reverse.head? = some c → isBlank c = false := by
    rw [List.head?_reverse]
    exact hrest
  rw [trimEnd, hs, List.reverse_append, takeWhile_blanks h.reverse hhead,
    dropWhile_blanks h.reverse hhead, List.reverse_reverse, List.length_reverse]

end Ends

theorem exists_strips (chars : List Char) :
    ∃ leading rest trailing, Strips chars leading rest trailing := by
  let tail := chars.dropWhile isBlank
  let rest := (tail.reverse.dropWhile isBlank).reverse
  let trailing := (tail.reverse.takeWhile isBlank).reverse
  have htail : tail = rest ++ trailing := by
    rw [← List.reverse_append, List.takeWhile_append_dropWhile, List.reverse_reverse]
  have htrailing : AllBlank trailing := (allBlank_takeWhile tail.reverse).reverse
  refine ⟨chars.takeWhile isBlank, rest, trailing, ?_, allBlank_takeWhile chars, htrailing, ?_, ?_⟩
  · rw [List.append_assoc, ← htail]
    exact List.takeWhile_append_dropWhile.symm
  · constructor
    · intro c hc
      have hhead : tail.head? = some c := by rw [htail, List.head?_append, hc, Option.some_or]
      exact isBlank_of_head?_dropWhile hhead
    · intro c hc
      rw [List.getLast?_reverse] at hc
      exact isBlank_of_head?_dropWhile hc
  · intro hnil
    -- The tail would begin with one of the trailing blanks.
    rw [hnil, List.nil_append] at htail
    cases ht : trailing with
    | nil => rfl
    | cons c more =>
      have hhead : tail.head? = some c := by rw [htail, ht, List.head?_cons]
      have hblank : isBlank c = true := htrailing c (ht ▸ List.mem_cons_self)
      rw [isBlank_of_head?_dropWhile hhead] at hblank
      cases hblank

theorem IsStripped.strips {chars : List Char} (h : IsStripped chars) :
    Strips chars [] chars [] where
  parts := by rw [List.nil_append, List.append_nil]
  leading_blank := allBlank_nil
  trailing_blank := allBlank_nil
  stripped := h
  trailing_nil _ := rfl

namespace Strips

variable {s : String} {chars leading rest trailing : List Char}

theorem trim_eq (h : Strips s.toList leading rest trailing) :
    trim s = (String.ofList rest, leading.length, trailing.length) := by
  have hhead : ∀ c, (rest ++ trailing).head? = some c → isBlank c = false := by
    by_cases hnil : rest = []
    · rw [hnil, h.trailing_nil hnil]
      intro c hc
      cases hc
    · rw [List.head?_append_of_ne_nil _ hnil]
      exact h.stripped.head
  have hparts := h.parts
  rw [List.append_assoc] at hparts
  rw [trim, trimStart_of_append hparts h.leading_blank hhead]
  dsimp only
  rw [trimEnd_of_append String.toList_ofList h.trailing_blank h.stripped.last]

theorem rest_eq_nil (h : Strips chars leading rest trailing) (hblank : AllBlank chars) :
    rest = [] := by
  cases hr : rest with
  | nil => rfl
  | cons c more =>
    have hnot := h.stripped.head c (by rw [hr, List.head?_cons])
    have hmem : c ∈ chars := by rw [h.parts, hr]; simp
    rw [hblank c hmem] at hnot
    cases hnot

theorem ne_nil (h : Strips chars leading rest trailing) (hblank : ¬ AllBlank chars) :
    rest ≠ [] := by
  intro hnil
  apply hblank
  rw [h.parts, hnil, List.append_nil]
  exact h.leading_blank.append h.trailing_blank

theorem length_eq (h : Strips chars leading rest trailing) :
    leading.length + rest.length + trailing.length = chars.length := by
  rw [h.parts, List.length_append, List.length_append]

theorem trimEnd_eq (h : Strips s.toList leading rest trailing) (hne : rest ≠ []) :
    trimEnd s = (String.ofList (leading ++ rest), trailing.length) := by
  apply trimEnd_of_append h.parts h.trailing_blank
  rw [List.getLast?_append_of_ne_nil _ hne]
  exact h.stripped.last

theorem trimStart_trimEnd (h : Strips s.toList leading rest trailing) (hne : rest ≠ []) :
    trimStart (trimEnd s).1 = (String.ofList rest, leading.length) := by
  rw [h.trimEnd_eq hne]
  exact trimStart_of_append String.toList_ofList h.leading_blank h.stripped.head

end Strips

theorem trimEnd_of_allBlank {s : String} (h : AllBlank s.toList) : trimEnd s = ("", s.length) := by
  rw [trimEnd_of_append (List.nil_append _).symm h (by simp), String.length_toList]

/-- A text is the blanks that trimming counts at its start, what trimming returns, and the blanks
that it counts at the end, and what it returns has no blank at either end. All of a blank text is
leading. If the end is trimmed first the text returned is the same, and so are the counts unless all
is blank; and nothing is left to be trimmed. -/
theorem trim_divides (s rest : String) (leading trailing : Nat)
    (htrim : trim s = (rest, leading, trailing)) :
    (∃ before after, AllBlank before ∧ AllBlank after ∧ before.length = leading ∧
      after.length = trailing ∧ s.toList = before ++ rest.toList ++ after) ∧
    leading + rest.length + trailing = s.length ∧
    IsStripped rest.toList ∧
    (AllBlank s.toList → rest = "" ∧ leading = s.length ∧ trailing = 0) ∧
    (trimStart (trimEnd s).1).1 = rest ∧
    (¬ AllBlank s.toList → (trimStart (trimEnd s).1).2 = leading ∧ (trimEnd s).2 = trailing) ∧
    trim rest = (rest, 0, 0) := by
  obtain ⟨before, middle, after, h⟩ := exists_strips s.toList
  rw [h.trim_eq, Prod.mk.injEq, Prod.mk.injEq] at htrim
  obtain ⟨rfl, rfl, rfl⟩ := htrim
  have hblank (hall : AllBlank s.toList) : middle = [] ∧ after = [] :=
    ⟨h.rest_eq_nil hall, h.trailing_nil (h.rest_eq_nil hall)⟩
  have hlength := h.length_eq
  rw [String.length_toList] at hlength
  refine ⟨⟨before, after, h.leading_blank, h.trailing_blank, rfl, rfl, ?_⟩, ?_, ?_, ?_, ?_, ?_, ?_⟩
  · rw [String.toList_ofList]
    exact h.parts
  · rw [← String.length_toList, String.toList_ofList]
    exact hlength
  · rw [String.toList_ofList]
    exact h.stripped
  · intro hall
    obtain ⟨rfl, rfl⟩ := hblank hall
    exact ⟨rfl, hlength, rfl⟩
  · by_cases hall : AllBlank s.toList
    · rw [trimEnd_of_allBlank hall, (hblank hall).1]
      rfl
    · rw [h.trimStart_trimEnd (h.ne_nil hall)]
  · intro hall
    rw [h.trimStart_trimEnd (h.ne_nil hall), h.trimEnd_eq (h.ne_nil hall)]
    exact ⟨rfl, rfl⟩
  · have hagain : Strips (String.ofList middle).toList [] middle [] := by
      rw [String.toList_ofList]
      exact h.stripped.strips
    exact hagain.trim_eq

/-- A gain between an ideographic space and a tab on the one side and two spaces of different width
on the other. -/
theorem trim_paddedGain :
    trim "\u3000\tkp\u00a040.0 \u2003" = ("kp\u00a040.0", 2, 2) ∧
      (trimStart (trimEnd "\u3000\tkp\u00a040.0 \u2003").1).1 = "kp\u00a040.0" ∧
      trim "kp\u00a040.0" = ("kp\u00a040.0", 0, 0) := by
  have htrim : trim "\u3000\tkp\u00a040.0 \u2003" = ("kp\u00a040.0", 2, 2) := by decide +kernel
  obtain ⟨-, -, -, -, hother, -, hagain⟩ := trim_divides _ _ _ _ htrim
  exact ⟨htrim, hother, hagain⟩

end DeviceDescription
