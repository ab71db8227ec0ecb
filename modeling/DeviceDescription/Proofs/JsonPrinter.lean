import DeviceDescription.Json.Printer
import DeviceDescription.Proofs.JsonReader

/-!
# Printed values are read back

What the printer writes belongs to the grammar and spells the value that was printed, unless that
has a part without a reading, for which the printer has only `null`. So reading undoes printing.
-/

namespace DeviceDescription.Json

/-- A value of which printing loses nothing. -/
inductive Legible : Json → Prop
  | null : Legible .null
  | bool (b : Bool) : Legible (.bool b)
  | natural (n : Nat) : Legible (.natural n)
  | text (s : String) : Legible (text s)
  | array {items : List Json} : (∀ item ∈ items, Legible item) → Legible (.array items)
  | record {members : List (String × Json)} :
      (∀ member ∈ members, Legible member.2) → Legible (record members)

/-! ### Strings -/

theorem isHexDigit_digitChar {n : Nat} (h : n < 16) : IsHexDigit n.digitChar n := ⟨h, .inl rfl⟩

theorem spellsUnit_escapeChar (c : Char) : SpellsUnit (escapeChar c) c.toNat := by
  by_cases hletter : c ∈ ['"', '\\', '\x08', '\x0c', '\n', '\r', '\t']
  · simp only [List.mem_cons, List.not_mem_nil, or_false] at hletter
    rcases hletter with rfl | rfl | rfl | rfl | rfl | rfl | rfl
    all_goals exact SpellsUnit.letter (by simp [letterEscapes])
  · simp only [List.mem_cons, List.not_mem_nil, or_false, not_or] at hletter
    by_cases hcontrol : c.toNat < 0x20
    · have hvalue : c.toNat =
          0x1000 * 0 + 0x100 * 0 + 0x10 * (c.toNat / 16) + c.toNat % 16 := by omega
      have hzero : IsHexDigit '0' 0 := isHexDigit_digitChar (by omega)
      have hnumber := SpellsUnit.number hzero hzero
        (isHexDigit_digitChar (show c.toNat / 16 < 16 by omega))
        (isHexDigit_digitChar (show c.toNat % 16 < 16 by omega))
      rw [← hvalue] at hnumber
      simpa [escapeChar, hletter, hcontrol] using hnumber
    · have hplain := SpellsUnit.plain (by omega) hletter.1 hletter.2.1
      simpa [escapeChar, hletter, hcontrol] using hplain

theorem spellsUnits_flatMap (cs : List Char) :
    SpellsUnits (cs.flatMap escapeChar) (cs.map Char.toNat) := by
  induction cs with
  | nil => exact .nil
  | cons c cs ih => exact .cons (spellsUnit_escapeChar c) ih

theorem denotes16_map (cs : List Char) : Denotes16 (cs.map Char.toNat) cs := by
  induction cs with
  | nil => exact .nil
  | cons c cs ih => exact .char c ih

theorem spellsString_quote (s : String) : SpellsString (quote s) (some s) :=
  .text (spellsUnits_flatMap s.toList) (denotes16_map s.toList)

/-! ### Items and members -/

theorem allSpace_lineBreak (depth : Nat) : AllSpace (lineBreak depth) := by
  intro c hc
  rcases List.mem_cons.mp hc with rfl | hc
  · simp
  · simp [List.eq_of_mem_replicate hc]

theorem allSpace_nil : AllSpace [] := by simp [AllSpace]

/-- The value is printed as a text that spells it, at whatever depth. -/
def Printed (value : Json) : Prop := ∀ depth, Spells (render depth value) (.value value)

theorem exists_spells_items (depth : Nat) {item : Json} {items : List Json} (hitem : Printed item)
    (hitems : ∀ item ∈ items, Printed item) :
    ∃ inner, lineBreak (depth + 1) ++ render (depth + 1) item ++ renderItems depth items =
        inner ++ [']'] ∧
      Spells inner (.items (item :: items)) := by
  induction items generalizing item with
  | nil =>
    refine ⟨lineBreak (depth + 1) ++ (render (depth + 1) item ++ lineBreak depth), ?_, ?_⟩
    · simp [renderItems]
    · exact .lastItem (.element (allSpace_lineBreak _) (hitem _) (allSpace_lineBreak _))
  | cons next items ih =>
    obtain ⟨hnext, hitems⟩ := List.forall_mem_cons.mp hitems
    obtain ⟨inner, heq, hinner⟩ := ih hnext hitems
    refine ⟨lineBreak (depth + 1) ++ (render (depth + 1) item ++ []) ++ ',' :: inner, ?_, ?_⟩
    · simp [renderItems, ← heq]
    · exact .moreItems (.element (allSpace_lineBreak _) (hitem _) allSpace_nil) hinner

/-- A member on its line, with the space that follows it. -/
theorem spells_member (depth : Nat) (name : String) {value : Json} (h : Printed value)
    {after : List Char} (hafter : AllSpace after) :
    Spells (lineBreak (depth + 1) ++ (quote name ++ ([] ++ ':' ::
      ([' '] ++ (render (depth + 1) value ++ after))))) (.member (some name, value)) :=
  .member (allSpace_lineBreak _) (spellsString_quote name) allSpace_nil
    (.element (by simp [AllSpace]) (h _) hafter)

theorem exists_spells_members (depth : Nat) {member : String × Json}
    {members : List (String × Json)} (hmember : Printed member.2)
    (hmembers : ∀ member ∈ members, Printed member.2) :
    ∃ inner, lineBreak (depth + 1) ++ renderMember depth (some member.1, member.2) ++
          renderMembers depth (members.map fun (name, value) => (some name, value)) =
        inner ++ ['\x7d'] ∧
      Spells inner
        (.members ((member :: members).map fun (name, value) => (some name, value))) := by
  induction members generalizing member with
  | nil =>
    refine ⟨_, ?_, .lastMember (spells_member depth member.1 hmember (allSpace_lineBreak depth))⟩
    simp [renderMember, renderMembers]
  | cons next members ih =>
    obtain ⟨hnext, hmembers⟩ := List.forall_mem_cons.mp hmembers
    obtain ⟨inner, heq, hinner⟩ := ih hnext hmembers
    refine ⟨_, ?_, .moreMembers (spells_member depth member.1 hmember allSpace_nil) hinner⟩
    simp only [List.append_assoc] at heq
    simp [renderMember, renderMembers, ← heq]

/-! ### Values -/

theorem Legible.printed {value : Json} (h : Legible value) : Printed value := by
  induction h with
  | null => exact fun _ => .null
  | bool b =>
    intro depth
    cases b with
    | false => exact .false
    | true => exact .true
  | natural n => exact fun _ => .natural n
  | text s => exact fun _ => .string (spellsString_quote s)
  | @array items _ ih =>
    intro depth
    cases items with
    | nil => exact .emptyArray allSpace_nil
    | cons item items =>
      obtain ⟨hitem, hitems⟩ := List.forall_mem_cons.mp ih
      obtain ⟨inner, heq, hinner⟩ := exists_spells_items depth hitem hitems
      rw [render, List.cons_append, List.cons_append, heq]
      exact .array hinner
  | @record members _ ih =>
    intro depth
    cases members with
    | nil => exact .emptyObject allSpace_nil
    | cons member members =>
      obtain ⟨hmember, hmembers⟩ := List.forall_mem_cons.mp ih
      obtain ⟨inner, heq, hinner⟩ := exists_spells_members depth hmember hmembers
      rw [Json.record, List.map_cons, render, List.cons_append, List.cons_append, heq]
      exact .object hinner

theorem Spells.alone {text : List Char} {value : Json} (h : Spells text (.value value)) :
    Spells text (.element value) := by
  simpa using Spells.element allSpace_nil h allSpace_nil

theorem spells_pretty {value : Json} (h : Legible value) :
    Spells value.pretty.toList (.element value) := by
  rw [pretty, String.toList_ofList]
  exact (h.printed 0).alone

/-- Reading undoes printing. -/
theorem parse?_pretty {value : Json} (h : Legible value) : parse? value.pretty = some value :=
  parse?_of_spells (spells_pretty h)

end DeviceDescription.Json
