import DeviceDescription.Proofs.Splice
import Mathlib.Logic.Relation

/-!
# The lines that an expansion comes to

`Reached` follows an expansion from line to line: over a line that includes nothing, into the file
of an include and, once that file is expanded, past the include. What stops an expansion is a fault
of the line reached last, and an expansion stops at a line it reaches exactly if that line is at
fault; so a statement about where an expansion fails is one about the lines reached.
-/

namespace DeviceDescription

/-- The expansion of `root` comes to the lines `rest` of `file`, from line `number` on, while the
files `above` wait for it, the innermost first. The lines gathered until then are `before`. -/
inductive Reached (disk : Disk) (limit : Nat) (root : String) :
    List Line → String → List String → Nat → List (List UInt8) → Prop
  | root {data} : disk.Holds root data → Reached disk limit root [] root [] 1 (fileLines data)
  | plain {before file above number text tokens rest} :
      Reached disk limit root before file above number (Utf8.encode text :: rest) →
      tokenize text = .ok tokens → tokens.head? ≠ some includeWord →
      Reached disk limit root (before ++ [⟨file, number, text⟩]) file above (number + 1) rest
  | enter {before file above number text path data rest} :
      Reached disk limit root before file above number (Utf8.encode text :: rest) →
      tokenize text = .ok [includeWord, path] → disk.Admits limit (file :: above) path data →
      Reached disk limit root (before ++ [⟨file, number, text⟩]) path (file :: above) 1
        (fileLines data)
  | leave {before file above number text path data rest inner} :
      Reached disk limit root before file above number (Utf8.encode text :: rest) →
      tokenize text = .ok [includeWord, path] → disk.Admits limit (file :: above) path data →
      Spliced disk limit path (file :: above) 1 (fileLines data) inner →
      Reached disk limit root (before ++ ⟨file, number, text⟩ :: inner) file above (number + 1) rest

/-- The whole takes up the part after the lines `before`: it stops where the part stops, and only
if the part is complete may it go on, with further lines before it stops. -/
def Expansion.Resumes (before : List Line) (part whole : Expansion) : Prop :=
  (∃ stop, part.stop = some stop ∧ whole.stop = some stop ∧ whole.lines = before ++ part.lines) ∨
    (part.stop = none ∧ ∃ more, whole.lines = before ++ part.lines ++ more ∧
      (more = [] → whole.stop = none))

/-- A line of two lists in a row is in the first one or in the second one. -/
theorem part_of_append_eq {xs ys past later : List Line} {line : Line}
    (h : xs ++ ys = past ++ line :: later) :
    (∃ later', xs = past ++ line :: later' ∧ later = later' ++ ys) ∨
      ∃ past', past = xs ++ past' ∧ ys = past' ++ line :: later := by
  rcases List.append_eq_append_iff.mp h with ⟨past', rfl, hys⟩ | ⟨more, rfl, hmore⟩
  · exact .inr ⟨past', rfl, hys⟩
  · cases more with
    | nil => exact .inr ⟨[], by simp, hmore.symm⟩
    | cons first more =>
      obtain ⟨rfl, hlater⟩ := List.cons.inj hmore
      exact .inl ⟨more, rfl, hlater⟩

namespace Expansion

variable {before : List Line} {first whole : Expansion} {second : Unit → Expansion}

theorem resumes_opening (e : Expansion) : Resumes [] e e.opening := by
  cases h : e.stop with
  | some stop => exact .inl ⟨stop, h, h, rfl⟩
  | none => exact .inr ⟨h, [], by simp [opening], fun _ => h⟩

theorem Resumes.andThen_right (h : Resumes before (first.andThen second) whole)
    (hfirst : first.stop = none) : Resumes (before ++ first.lines) (second ()) whole := by
  rw [andThen_of_complete hfirst] at h
  simpa only [Resumes, List.append_assoc] using h

theorem Resumes.andThen_left (h : Resumes before (first.andThen second) whole)
    (hsecond : (second ()).stop ≠ none → (second ()).lines ≠ []) :
    Resumes before first whole := by
  cases hf : first.stop with
  | some stop =>
    rw [andThen_of_stopped hf] at h
    exact h
  | none =>
    rw [andThen_of_complete hf] at h
    refine .inr ⟨hf, ?_⟩
    rcases h with ⟨stop, hs, -, hlines⟩ | ⟨hs, more, hlines, hmore⟩
    · refine ⟨(second ()).lines, by rw [hlines, List.append_assoc], ?_⟩
      intro hnil
      have hne : (second ()).stop ≠ none := by
        change (second ()).stop = some stop at hs
        simp [hs]
      exact absurd hnil (hsecond hne)
    · refine ⟨(second ()).lines ++ more, by rw [hlines]; simp only [List.append_assoc], ?_⟩
      intro hnil
      exact hmore (List.append_eq_nil_iff.mp hnil).2

theorem andThen_lines_ne_nil (hfirst : first.stop ≠ none → first.lines ≠ [])
    (hsecond : (second ()).stop ≠ none → (second ()).lines ≠ [])
    (h : (first.andThen second).stop ≠ none) : (first.andThen second).lines ≠ [] := by
  cases hf : first.stop with
  | some stop =>
    rw [andThen_of_stopped hf]
    exact hfirst (by simp [hf])
  | none =>
    rw [andThen_of_complete hf] at h ⊢
    exact List.append_ne_nil_of_right_ne_nil _ (hsecond h)

theorem Resumes.not_stop_of_cons {part : Expansion} {line : Line} {tail : List Line}
    (h : Resumes before part whole) (hpart : part.lines = line :: tail)
    (htail : part.stop ≠ none → tail ≠ []) (hwhole : whole.lines = before ++ [line]) :
    whole.stop = none := by
  rcases h with ⟨stop, hs, -, hlines⟩ | ⟨-, more, hlines, hmore⟩
  · rw [hlines, hpart, List.append_cancel_left_eq] at hwhole
    exact absurd (List.cons.inj hwhole).2 (htail (by simp [hs]))
  · rw [hlines, hpart, List.append_assoc, List.append_cancel_left_eq, List.cons_append] at hwhole
    exact hmore (List.append_eq_nil_iff.mp (List.cons.inj hwhole).2).2

end Expansion

section Rest

variable {disk : Disk} {limit : Nat} {file : String} {above : List String} {number : Nat}
  {bytes : List UInt8} {rest : List (List UInt8)}

theorem lines_ne_nil_of_stop
    (h : (expandRest disk limit file above number rest).stop ≠ none) :
    (expandRest disk limit file above number rest).lines ≠ [] := by
  cases rest with
  | nil => exact absurd rfl h
  | cons bytes rest =>
    rw [expandRest, expandLines, Expansion.ofLine_andThen]
    exact List.cons_ne_nil _ _

/-- After a line that is not at fault there are further lines before the work stops. -/
theorem faulty_or_tail_ne_nil (disk : Disk) (limit : Nat) (file : String) (above : List String)
    (number : Nat) (bytes : List UInt8) (rest : List (List UInt8)) :
    (∃ stop, Faulty disk limit file above number bytes stop) ∨
      ∃ tail, (expandRest disk limit file above number (bytes :: rest)).lines =
          ⟨file, number, Utf8.decodeLossy bytes⟩ :: tail ∧
        ((expandRest disk limit file above number (bytes :: rest)).stop ≠ none → tail ≠ []) := by
  rcases line_cases disk limit file above number bytes with
    hf | ⟨text, tokens, rfl, ht, hword⟩ | ⟨text, path, data, rfl, ht, ha⟩
  · exact .inl hf
  · rw [expandRest_of_plain number rest ht hword, Expansion.ofLine_andThen,
      Utf8.decodeLossy_encode]
    exact .inr ⟨_, rfl, lines_ne_nil_of_stop⟩
  · rw [expandRest_of_admits number rest ht ha, Expansion.ofLine_andThen, Utf8.decodeLossy_encode]
    refine .inr ⟨_, rfl, ?_⟩
    exact Expansion.andThen_lines_ne_nil lines_ne_nil_of_stop lines_ne_nil_of_stop

end Rest

namespace Reached

variable {disk : Disk} {limit : Nat} {root : String} {before : List Line} {file : String}
  {above : List String} {number : Nat} {bytes : List UInt8} {rest : List (List UInt8)}

/-- An expansion takes up the work on the lines it comes to. -/
theorem resumes (h : Reached disk limit root before file above number rest) :
    Expansion.Resumes before (expandRest disk limit file above number rest)
      (expand disk limit root) := by
  induction h with
  | root hholds =>
    rw [expand_of_holds hholds]
    exact Expansion.resumes_opening _
  | @plain before file above number text tokens rest _ ht hword ih =>
    rw [expandRest_of_plain number rest ht hword] at ih
    exact ih.andThen_right rfl
  | @enter before file above number text path data rest _ ht ha ih =>
    rw [expandRest_of_admits number rest ht ha] at ih
    exact (ih.andThen_right rfl).andThen_left lines_ne_nil_of_stop
  | @leave before file above number text path data rest inner _ ht ha hinner ih =>
    rw [expandRest_of_admits number rest ht ha] at ih
    have hlines := hinner.expandRest_eq
    have hleft := (ih.andThen_right rfl).andThen_right (by rw [hlines]; rfl)
    simpa only [hlines, Expansion.ofLine, Expansion.opening, List.append_assoc,
      List.singleton_append] using hleft

/-- An expansion stops at a line that it comes to exactly if that line is at fault. -/
theorem stops_iff (h : Reached disk limit root before file above number (bytes :: rest))
    (stop : Stop) :
    ((expand disk limit root).stop = some stop ∧
        (expand disk limit root).lines = before ++ [⟨file, number, Utf8.decodeLossy bytes⟩]) ↔
      Faulty disk limit file above number bytes stop := by
  have hres := h.resumes
  have hfaulty {stop' : Stop} (hf : Faulty disk limit file above number bytes stop') :
      (expand disk limit root).stop = some stop' ∧
        (expand disk limit root).lines = before ++ [⟨file, number, Utf8.decodeLossy bytes⟩] := by
    obtain ⟨hlines, hstop⟩ := hf.expandRest_eq rest
    rcases hres with ⟨stop'', hs, hw, hl⟩ | ⟨hs, -⟩
    · rw [hstop] at hs
      rw [hw, ← hs, hl, hlines]
      exact ⟨rfl, rfl⟩
    · rw [hstop] at hs
      cases hs
  refine ⟨?_, hfaulty⟩
  rintro ⟨hstop, hlines⟩
  rcases faulty_or_tail_ne_nil disk limit file above number bytes rest with
    ⟨stop', hf⟩ | ⟨tail, htail, hne⟩
  · obtain ⟨hstop', -⟩ := hfaulty hf
    rw [hstop] at hstop'
    obtain rfl := Option.some.inj hstop'
    exact hf
  · -- The line is not the last one, so no stop of the expansion is blamed on it.
    rw [hres.not_stop_of_cons htail hne hlines] at hstop
    cases hstop

theorem lines_prefix (h : Reached disk limit root before file above number (bytes :: rest)) :
    before ++ [⟨file, number, Utf8.decodeLossy bytes⟩] <+: (expand disk limit root).lines := by
  have hcons : [(⟨file, number, Utf8.decodeLossy bytes⟩ : Line)] <+:
      (expandRest disk limit file above number (bytes :: rest)).lines := by
    rw [expandRest, expandLines, Expansion.ofLine_andThen]
    exact ⟨_, rfl⟩
  obtain ⟨tail, ht⟩ := hcons
  rcases h.resumes with ⟨-, -, -, hl⟩ | ⟨-, more, hl, -⟩
  · rw [hl, ← ht, ← List.append_assoc]
    exact List.prefix_append _ _
  · rw [hl, ← ht, ← List.append_assoc, List.append_assoc]
    exact List.prefix_append _ _

theorem complete (h : Reached disk limit root before file above number rest)
    (hdone : (expand disk limit root).stop = none) :
    (expandRest disk limit file above number rest).stop = none := by
  rcases h.resumes with ⟨stop, -, hw, -⟩ | ⟨hs, -⟩
  · rw [hdone] at hw
    cases hw
  · exact hs

theorem nodup (h : Reached disk limit root before file above number rest) :
    ((file :: above).map disk.key).Nodup := by
  induction h with
  | root => exact List.nodup_cons.mpr ⟨List.not_mem_nil, List.nodup_nil⟩
  | plain _ _ _ ih => exact ih
  | enter _ _ ha ih => exact List.nodup_cons.mpr ⟨ha.fresh, ih⟩
  | leave _ _ _ _ ih => exact ih

theorem above_length_le (h : Reached disk limit root before file above number rest) :
    above.length ≤ limit := by
  induction h with
  | root => exact Nat.zero_le _
  | plain _ _ _ ih => exact ih
  | enter _ _ ha _ => exact ha.shallow
  | leave _ _ _ _ ih => exact ih

theorem exists_holds (h : Reached disk limit root before file above number rest) :
    ∀ p ∈ file :: above, ∃ data, disk.Holds p data := by
  induction h with
  | root hholds =>
    intro p hp
    obtain rfl := List.mem_singleton.mp hp
    exact ⟨_, hholds⟩
  | plain _ _ _ ih => exact ih
  | enter _ _ ha ih =>
    intro p hp
    rcases List.mem_cons.mp hp with rfl | hp
    · exact ⟨_, ha.holds⟩
    · exact ih p hp
  | leave _ _ _ _ ih => exact ih

theorem eq_drop_succ {lines : List (List UInt8)} {k : Nat} (h : bytes :: rest = lines.drop k) :
    rest = lines.drop (k + 1) := by
  rw [← List.tail_drop, ← h, List.tail_cons]

/-- The lines that an expansion comes to are those of the file from their number on. -/
theorem eq_drop (h : Reached disk limit root before file above number rest) :
    ∃ data, disk.Holds file data ∧ 1 ≤ number ∧ rest = (fileLines data).drop (number - 1) := by
  induction h with
  | root hholds => exact ⟨_, hholds, le_refl 1, rfl⟩
  | @plain before file above number text tokens rest _ _ _ ih =>
    obtain ⟨data, hholds, hnumber, hrest⟩ := ih
    refine ⟨data, hholds, Nat.le_add_left 1 number, ?_⟩
    rw [Nat.add_sub_cancel, eq_drop_succ hrest, Nat.sub_add_cancel hnumber]
  | enter _ _ ha _ => exact ⟨_, ha.holds, le_refl 1, rfl⟩
  | @leave before file above number text path data rest inner _ _ _ _ ih =>
    obtain ⟨data', hholds, hnumber, hrest⟩ := ih
    refine ⟨data', hholds, Nat.le_add_left 1 number, ?_⟩
    rw [Nat.add_sub_cancel, eq_drop_succ hrest, Nat.sub_add_cancel hnumber]

theorem suffix (h : Reached disk limit root before file above number rest) :
    ∃ data, disk.Holds file data ∧ rest <:+ fileLines data := by
  obtain ⟨data, hholds, -, hrest⟩ := h.eq_drop
  exact ⟨data, hholds, hrest ▸ List.drop_suffix _ _⟩

theorem exists_fileLine (h : Reached disk limit root before file above number (bytes :: rest)) :
    ∃ data, disk.Holds file data ∧ (fileLines data)[number - 1]? = some bytes := by
  obtain ⟨data, hholds, -, hrest⟩ := h.eq_drop
  refine ⟨data, hholds, ?_⟩
  rw [← List.head?_drop, ← hrest, List.head?_cons]

/-- A line of a file has the same bytes wherever an expansion comes to it. -/
theorem bytes_unique {before' : List Line} {above' : List String} {bytes' : List UInt8}
    {rest' : List (List UInt8)}
    (h : Reached disk limit root before file above number (bytes :: rest))
    (h' : Reached disk limit root before' file above' number (bytes' :: rest')) :
    bytes = bytes' := by
  obtain ⟨data, hholds, hline⟩ := h.exists_fileLine
  obtain ⟨data', hholds', hline'⟩ := h'.exists_fileLine
  rw [hholds.unique hholds', hline'] at hline
  exact (Option.some.inj hline).symm

end Reached

section Completeness

variable {disk : Disk} {limit : Nat} {root : String} {before : List Line} {file : String}
  {above : List String} {number : Nat} {rest : List (List UInt8)} {stop : Stop}

theorem exists_faulty_of_expandRest
    (h : Reached disk limit root before file above number rest)
    (hstop : (expandRest disk limit file above number rest).stop = some stop) :
    ∃ before' file' above' number' bytes' rest',
      Reached disk limit root before' file' above' number' (bytes' :: rest') ∧
        Faulty disk limit file' above' number' bytes' stop := by
  induction file, above, number, rest using expandRest_induction disk limit generalizing before with
  | done => cases hstop
  | faulty file above number bytes rest stop' hf =>
    rw [(hf.expandRest_eq rest).2] at hstop
    obtain rfl := Option.some.inj hstop
    exact ⟨_, _, _, _, _, _, h, hf⟩
  | plain file above number text tokens rest ht hword ih =>
    rw [expandRest_of_plain number rest ht hword, Expansion.ofLine_andThen] at hstop
    exact ih (.plain h ht hword) hstop
  | included file above number text path data rest ht ha ihInner ihRest =>
    rw [expandRest_of_admits number rest ht ha, Expansion.ofLine_andThen] at hstop
    cases hi : (expandRest disk limit path (file :: above) 1 (fileLines data)).opening.stop with
    | some stop' =>
      rw [Expansion.andThen_of_stopped hi, hi] at hstop
      obtain rfl := Option.some.inj hstop
      exact ihInner (.enter h ht ha) hi
    | none =>
      rw [Expansion.andThen_of_complete hi] at hstop
      exact ihRest (.leave h ht ha (spliced_of_expandRest hi)) hstop

/-- Every line gathered is one that the expansion comes to. -/
theorem exists_reached_of_lines
    (h : Reached disk limit root before file above number rest) {past tail : List Line}
    {line : Line} (hlines : (expandRest disk limit file above number rest).lines =
      past ++ line :: tail) :
    ∃ file' above' number' bytes' rest',
      Reached disk limit root (before ++ past) file' above' number' (bytes' :: rest') ∧
        line = ⟨file', number', Utf8.decodeLossy bytes'⟩ := by
  induction file, above, number, rest using expandRest_induction disk limit
    generalizing before past tail with
  | done => simp [expandRest, expandLines, Expansion.empty] at hlines
  | faulty file above number bytes rest stop hf =>
    rw [(hf.expandRest_eq rest).1, List.singleton_eq_append_iff] at hlines
    rcases hlines with ⟨rfl, hl⟩ | ⟨-, hl⟩
    · rw [List.append_nil]
      exact ⟨_, _, _, _, _, h, (List.cons.inj hl).1⟩
    · cases hl
  | plain file above number text tokens rest ht hword ih =>
    rw [expandRest_of_plain number rest ht hword, Expansion.ofLine_andThen] at hlines
    cases past with
    | nil =>
      rw [List.append_nil]
      refine ⟨_, _, _, _, _, h, ?_⟩
      rw [Utf8.decodeLossy_encode]
      exact (List.cons.inj hlines).1.symm
    | cons l past =>
      obtain ⟨rfl, htail⟩ := List.cons.inj hlines
      have hnext := ih (.plain h ht hword) htail
      rwa [List.append_assoc, List.singleton_append] at hnext
  | included file above number text path data rest ht ha ihInner ihRest =>
    rw [expandRest_of_admits number rest ht ha, Expansion.ofLine_andThen] at hlines
    cases past with
    | nil =>
      rw [List.append_nil]
      refine ⟨_, _, _, _, _, h, ?_⟩
      rw [Utf8.decodeLossy_encode]
      exact (List.cons.inj hlines).1.symm
    | cons l past =>
      obtain ⟨rfl, htail⟩ := List.cons.inj hlines
      have hinner {past' tail' : List Line}
          (hl : (expandRest disk limit path (file :: above) 1 (fileLines data)).lines =
            past' ++ line :: tail') := ihInner (.enter h ht ha) hl
      simp only [List.append_assoc, List.singleton_append] at hinner
      cases hi : (expandRest disk limit path (file :: above) 1 (fileLines data)).opening.stop with
      | some stop' =>
        rw [Expansion.andThen_of_stopped hi] at htail
        exact hinner htail
      | none =>
        rw [Expansion.andThen_of_complete hi] at htail
        have hrest {past' tail' : List Line}
            (hl : (expandRest disk limit file above (number + 1) rest).lines =
              past' ++ line :: tail') :=
          ihRest (.leave h ht ha (spliced_of_expandRest hi)) hl
        simp only [List.append_assoc, List.cons_append] at hrest
        rcases part_of_append_eq htail with ⟨tail', hl, -⟩ | ⟨past', rfl, hl⟩
        · exact hinner hl
        · exact hrest hl

theorem Reached.mem (h : Reached disk limit root before file above number rest)
    (hdone : (expand disk limit root).stop = none) {bytes : List UInt8} (hmem : bytes ∈ rest) :
    ∃ before' number' rest', Reached disk limit root before' file above number' (bytes :: rest') := by
  induction rest generalizing before number with
  | nil => cases hmem
  | cons first rest ih =>
    rcases List.mem_cons.mp hmem with rfl | hrest
    · exact ⟨before, number, rest, h⟩
    · rcases line_cases disk limit file above number first with
        ⟨stop, hf⟩ | ⟨text, tokens, rfl, ht, hword⟩ | ⟨text, path, data, rfl, ht, ha⟩
      · rw [((h.stops_iff stop).mpr hf).1] at hdone
        cases hdone
      · exact ih (.plain h ht hword) hrest
      · have hinner := (Reached.enter h ht ha).complete hdone
        exact ih (.leave h ht ha (spliced_of_expandRest hinner)) hrest

/-- The lines gathered are just those that the expansion comes to, each in its place. -/
theorem prefix_lines_iff_reached {line : Line} :
    before ++ [line] <+: (expand disk limit root).lines ↔
      ∃ above bytes rest, line.text = Utf8.decodeLossy bytes ∧
        Reached disk limit root before line.file above line.number (bytes :: rest) := by
  constructor
  · rintro ⟨tail, htail⟩
    rcases exists_holds_or_stop disk limit root with ⟨data, hholds⟩ | ⟨-, hnil, -⟩
    · rw [expand_of_holds hholds, List.append_assoc] at htail
      obtain ⟨file, above, number, bytes, rest, h, rfl⟩ :=
        exists_reached_of_lines (.root hholds) htail.symm
      exact ⟨above, bytes, rest, rfl, h⟩
    · simp [hnil] at htail
  · rintro ⟨above, bytes, rest, htext, h⟩
    obtain ⟨file, number, text⟩ := line
    obtain rfl : text = Utf8.decodeLossy bytes := htext
    exact h.lines_prefix

theorem expand_stop (h : (expand disk limit root).stop = some stop) :
    (∃ obstacle : Obstacle, stop = ⟨.cannotOpen root obstacle.message, none⟩) ∨
      (∃ obstacle : Obstacle, stop = ⟨.readFailed root obstacle.message, none⟩) ∨
      ∃ before file above number bytes rest,
        Reached disk limit root before file above number (bytes :: rest) ∧
          Faulty disk limit file above number bytes stop := by
  rcases exists_holds_or_stop disk limit root with ⟨data, hholds⟩ | ⟨obstacle, -, hstop | hstop⟩
  · rw [expand_of_holds hholds] at h
    exact .inr (.inr (exists_faulty_of_expandRest (.root hholds) h))
  · rw [hstop] at h
    exact .inl ⟨obstacle, (Option.some.inj h).symm⟩
  · rw [hstop] at h
    exact .inr (.inl ⟨obstacle, (Option.some.inj h).symm⟩)

end Completeness

end DeviceDescription
