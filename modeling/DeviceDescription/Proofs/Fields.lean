import DeviceDescription.Json.Record
import Mathlib.Data.List.Forall2
import Mathlib.Data.List.Nodup

/-!
# Fields of records

A field of an object is read whatever stands around it. It has a value if it is named once and none
if it is not named; an object that names a declared field twice is no record.
-/

namespace DeviceDescription.Json

/-- What the members of an object give for one field. -/
inductive Field (name : String) : List (String × Json) → Option Json → Prop
  | absent {members} : name ∉ members.map Prod.fst → Field name members none
  | given {before value after} : name ∉ before.map Prod.fst → name ∉ after.map Prod.fst →
      Field name (before ++ (name, value) :: after) (some value)

/-- A field that is named more than once. -/
inductive Repeated (name : String) : List (String × Json) → Prop
  | twice {before first between second after} :
      Repeated name (before ++ (name, first) :: (between ++ (name, second) :: after))

section Values

variable {name : String} {members before after : List (String × Json)}

theorem valuesOf_append (name : String) (before after : List (String × Json)) :
    valuesOf name (before ++ after) = valuesOf name before ++ valuesOf name after := by
  rw [valuesOf, List.filter_append, List.map_append]
  rfl

theorem valuesOf_cons_self (name : String) (value : Json) (after : List (String × Json)) :
    valuesOf name ((name, value) :: after) = value :: valuesOf name after := by
  simp [valuesOf]

theorem valuesOf_eq_nil (h : name ∉ members.map Prod.fst) : valuesOf name members = [] := by
  have hall : ∀ member ∈ members, (member.1 == name) = false := by
    intro member hmember
    rw [beq_eq_false_iff_ne]
    rintro rfl
    exact h (List.mem_map_of_mem hmember)
  rw [valuesOf, List.filter_eq_nil_iff.mpr fun member hmember => by simp [hall member hmember]]
  rfl

theorem exists_eq_append_of_mem (h : name ∈ members.map Prod.fst) :
    ∃ before value after, members = before ++ (name, value) :: after ∧
      name ∉ before.map Prod.fst := by
  induction members with
  | nil => simp at h
  | cons member members ih =>
    obtain ⟨name', value⟩ := member
    by_cases hname : name = name'
    · subst hname
      exact ⟨[], value, members, rfl, by simp⟩
    · have hmem : name ∈ members.map Prod.fst := by simpa [hname] using h
      obtain ⟨before, value', after, rfl, hbefore⟩ := ih hmem
      exact ⟨(name', value) :: before, value', after, rfl, by simpa [hname] using hbefore⟩

theorem field_or_repeated (name : String) (members : List (String × Json)) :
    (∃ value?, Field name members value?) ∨ Repeated name members := by
  by_cases hname : name ∈ members.map Prod.fst
  · obtain ⟨before, value, after, rfl, hbefore⟩ := exists_eq_append_of_mem hname
    by_cases hafter : name ∈ after.map Prod.fst
    · obtain ⟨between, second, after, rfl, -⟩ := exists_eq_append_of_mem hafter
      exact .inr .twice
    · exact .inl ⟨_, .given hbefore hafter⟩
  · exact .inl ⟨none, .absent hname⟩

theorem Field.valuesOf_eq {value? : Option Json} (h : Field name members value?) :
    valuesOf name members = value?.toList := by
  cases h with
  | absent habsent => exact valuesOf_eq_nil habsent
  | given hbefore hafter =>
    rw [valuesOf_append, valuesOf_cons_self, valuesOf_eq_nil hbefore, valuesOf_eq_nil hafter]
    rfl

theorem Repeated.two_le (h : Repeated name members) : 2 ≤ (valuesOf name members).length := by
  cases h
  simp only [valuesOf_append, valuesOf_cons_self, List.length_append, List.length_cons]
  omega

theorem Field.unique {value? value?' : Option Json} (h : Field name members value?)
    (h' : Field name members value?') : value? = value?' := by
  have heq := h.valuesOf_eq.symm.trans h'.valuesOf_eq
  cases value? <;> cases value?' <;> simp_all

theorem Repeated.not_field {value? : Option Json} (h : Repeated name members) :
    ¬ Field name members value? := by
  intro hfield
  have htwo := h.two_le
  rw [hfield.valuesOf_eq] at htwo
  cases value? <;> simp at htwo

/-- A member gives its field the value, unless that is named again. -/
theorem Field.eq_of_mem {value : Json} {value? : Option Json} (h : Field name members value?)
    (hmem : (name, value) ∈ members) : value? = some value := by
  have hvalue : value ∈ valuesOf name members :=
    List.mem_map.mpr ⟨(name, value), List.mem_filter.mpr ⟨hmem, by simp⟩, rfl⟩
  rw [h.valuesOf_eq] at hvalue
  exact Option.mem_toList.mp hvalue

/-- In a record without repetition each field is the one that is named. -/
theorem Field.of_mem (hmembers : (members.map Prod.fst).Nodup) {member : String × Json}
    (h : member ∈ members) : Field member.1 members (some member.2) := by
  obtain ⟨before, after, rfl⟩ := List.append_of_mem h
  rw [List.map_append, List.map_cons, List.nodup_middle, List.nodup_cons, List.mem_append,
    not_or] at hmembers
  exact .given hmembers.1.1 hmembers.1.2

end Values

/-! ### Records -/

theorem namedMembers?_record (members : List (String × Json)) :
    namedMembers? (members.map fun (name, value) => (some name, value)) = some members := by
  rw [namedMembers?]
  induction members with
  | nil => rfl
  | cons member members ih =>
    rw [List.map_cons, List.mapM_cons, ih]
    rfl

theorem fields?_record_eq (names : List String) (members : List (String × Json)) :
    fields? names (record members) =
      if (names.map (valuesOf · members)).all (·.length ≤ 1) then
        some ((names.map (valuesOf · members)).map List.head?)
      else none := by
  rw [record, fields?, namedMembers?_record]
  rfl

/-- The fields of an object are what its members give for them. -/
theorem fields?_of_fields {names : List String} {members : List (String × Json)}
    {values : List (Option Json)}
    (h : List.Forall₂ (fun name value? => Field name members value?) names values) :
    fields? names (record members) = some values := by
  have hvalues : names.map (valuesOf · members) = values.map Option.toList := by
    induction h with
    | nil => rfl
    | cons hfield _ ih => rw [List.map_cons, List.map_cons, hfield.valuesOf_eq, ih]
  rw [fields?_record_eq, hvalues, if_pos, List.map_map]
  · congr 1
    conv_rhs => rw [← List.map_id values]
    apply List.map_congr_left
    intro value? _
    cases value? <;> rfl
  · simp only [List.all_map, List.all_eq_true, Function.comp_apply, decide_eq_true_eq]
    intro value? _
    cases value? <;> simp

theorem fields?_of_repeated {names : List String} {members : List (String × Json)} {name : String}
    (hname : name ∈ names) (h : Repeated name members) : fields? names (record members) = none := by
  rw [fields?_record_eq, if_neg]
  simp only [List.all_map, List.all_eq_true, Function.comp_apply, decide_eq_true_eq]
  intro hall
  have := hall name hname
  have := h.two_le
  omega

theorem fields_or_repeated (names : List String) (members : List (String × Json)) :
    (∃ values, List.Forall₂ (fun name value? => Field name members value?) names values) ∨
      ∃ name ∈ names, Repeated name members := by
  induction names with
  | nil => exact .inl ⟨[], .nil⟩
  | cons name names ih =>
    rcases field_or_repeated name members with ⟨value?, hfield⟩ | hrepeated
    · rcases ih with ⟨values, hfields⟩ | ⟨name', hname', hrepeated⟩
      · exact .inl ⟨value? :: values, .cons hfield hfields⟩
      · exact .inr ⟨name', List.mem_cons_of_mem _ hname', hrepeated⟩
    · exact .inr ⟨name, List.mem_cons_self, hrepeated⟩

theorem fields?_record {members : List (String × Json)} (h : (members.map Prod.fst).Nodup) :
    fields? (members.map Prod.fst) (record members) =
      some (members.map fun member => some member.2) := by
  apply fields?_of_fields
  rw [List.forall₂_map_left_iff, List.forall₂_map_right_iff, List.forall₂_same]
  exact fun member hmember => .of_mem h hmember

theorem list?_map {α : Type} {read : Json → Option α} {toJson : α → Json} {values : List α}
    (h : ∀ value ∈ values, read (toJson value) = some value) :
    list? read (.array (values.map toJson)) = some values := by
  rw [list?]
  induction values with
  | nil => rfl
  | cons value values ih =>
    obtain ⟨hvalue, hvalues⟩ := List.forall_mem_cons.mp h
    rw [List.map_cons, List.mapM_cons, hvalue, ih hvalues]
    rfl

theorem word?_natural {n : Nat} (h : n < UInt64.size) : word? (.natural n) = some n := if_pos h

end DeviceDescription.Json
