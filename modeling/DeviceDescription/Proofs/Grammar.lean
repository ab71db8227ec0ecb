import DeviceDescription.Document
import Mathlib.Tactic.Common

/-!
# The grammar of blocks

The lines of a description that are delivered are in the grammar if they are content lines and
blocks, a block being a `begin` line, content lines and an `end` line of the same type. `Grouped`
says so and which document that makes. `Follows` and `Breach` look at one line at a time: what it
does to the block that it stands in, and why it cannot stand there. Lines that follow each other
from no block to no block are those in the grammar, and the first line in breach is the first with
which the lines begin none in the grammar.
-/

namespace DeviceDescription

abbrev Delivery := Line × List String

/-- Those of the lines that are delivered. -/
def deliveries (showIncludes : Bool) (lines : List Line) : List Delivery :=
  lines.filterMap fun line => (line.deliveredTokens? showIncludes).map fun tokens => (line, tokens)

def IsContent (tokens : List String) : Prop :=
  tokens.head? ≠ some beginWord ∧ tokens.head? ≠ some endWord

/-- The lines are content lines and blocks, and together they make the document. -/
inductive Grouped : List Delivery → Document → Prop
  | nil : Grouped [] .empty
  | content {line tokens rest doc} : IsContent tokens → Grouped rest doc →
      Grouped ((line, tokens) :: rest) { doc with globals := tokens :: doc.globals }
  | block {line type extra inside last extra' rest doc} :
      (∀ entry ∈ inside, IsContent entry.2) → Grouped rest doc →
      Grouped
        ((line, beginWord :: type :: extra) :: (inside ++ (last, endWord :: type :: extra') :: rest))
        { doc with
          devices := ⟨type, line.file, line.number, inside.map Prod.snd⟩ :: doc.devices }

/-- The lines are the beginning of some in the grammar. -/
def Viable (lines : List Delivery) : Prop := ∃ rest doc, Grouped (lines ++ rest) doc

/-- A line with the tokens can stand in the first block, and leaves the second one open. -/
inductive Follows : Option String → List String → Option String → Prop
  | content {block tokens} : IsContent tokens → Follows block tokens block
  | opening {type extra} : Follows none (beginWord :: type :: extra) (some type)
  | closing {type extra} : Follows (some type) (endWord :: type :: extra) none

/-- Why a line with the tokens cannot stand in the block. -/
inductive Breach : Option String → List String → Fault → Prop
  | nested {opened rest} :
      Breach (some opened) (beginWord :: rest) (.nestedBlock opened (rest.head?.getD ""))
  | untypedBegin : Breach none [beginWord] (.missingArgument beginWord)
  | untypedEnd {block} : Breach block [endWord] (.missingArgument endWord)
  | unmatched {block type extra} : block ≠ some type →
      Breach block (endWord :: type :: extra) (.unmatchedEnd block type)

/-- The lines follow each other from one block to another. -/
inductive Leaves : Option String → List Delivery → Option String → Prop
  | nil {block} : Leaves block [] block
  | cons {block line tokens next rest last} : Follows block tokens next → Leaves next rest last →
      Leaves block ((line, tokens) :: rest) last

theorem isContent_or_word (tokens : List String) :
    IsContent tokens ∨ ∃ rest, tokens = beginWord :: rest ∨ tokens = endWord :: rest := by
  cases tokens with
  | nil => exact .inl ⟨by simp, by simp⟩
  | cons word rest =>
    by_cases hb : word = beginWord
    · exact .inr ⟨rest, .inl (by rw [hb])⟩
    · by_cases he : word = endWord
      · exact .inr ⟨rest, .inr (by rw [he])⟩
      · exact .inl ⟨by simpa using hb, by simpa using he⟩

theorem endWord_ne_beginWord : endWord ≠ beginWord := by decide

@[simp] theorem not_isContent_begin (rest : List String) : ¬ IsContent (beginWord :: rest) :=
  fun h => h.1 rfl

@[simp] theorem not_isContent_end (rest : List String) : ¬ IsContent (endWord :: rest) :=
  fun h => h.2 rfl

/-! ### One line -/

theorem follows_or_breach (block : Option String) (tokens : List String) :
    (∃ next, Follows block tokens next) ∨ ∃ fault, Breach block tokens fault := by
  rcases isContent_or_word tokens with hc | ⟨rest, rfl | rfl⟩
  · exact .inl ⟨block, .content hc⟩
  · cases block with
    | some opened => exact .inr ⟨_, .nested⟩
    | none =>
      cases rest with
      | nil => exact .inr ⟨_, .untypedBegin⟩
      | cons type extra => exact .inl ⟨_, .opening⟩
  · cases rest with
    | nil => exact .inr ⟨_, .untypedEnd⟩
    | cons type extra =>
      by_cases hb : block = some type
      · subst hb
        exact .inl ⟨_, .closing⟩
      · exact .inr ⟨_, .unmatched hb⟩

theorem Follows.not_breach {block next : Option String} {tokens : List String} {fault : Fault}
    (h : Follows block tokens next) : ¬ Breach block tokens fault := by
  intro hb
  cases h with
  | content hc =>
    cases hb with
    | nested => exact not_isContent_begin _ hc
    | untypedBegin => exact not_isContent_begin _ hc
    | untypedEnd => exact not_isContent_end _ hc
    | unmatched => exact not_isContent_end _ hc
  | @opening type extra =>
    generalize ht : beginWord :: type :: extra = tokens at hb
    cases hb with
    | untypedBegin => cases ht
    | untypedEnd => exact endWord_ne_beginWord (List.cons.inj ht).1.symm
    | unmatched => exact endWord_ne_beginWord (List.cons.inj ht).1.symm
  | @closing type extra =>
    generalize ht : endWord :: type :: extra = tokens at hb
    cases hb with
    | nested => exact endWord_ne_beginWord (List.cons.inj ht).1
    | untypedEnd => cases ht
    | unmatched hne =>
      obtain ⟨-, htail⟩ := List.cons.inj ht
      exact hne (congrArg some (List.cons.inj htail).1)

theorem Follows.unique {block next next' : Option String} {tokens : List String}
    (h : Follows block tokens next) (h' : Follows block tokens next') : next = next' := by
  cases h with
  | content hc =>
    cases h' with
    | content => rfl
    | opening => exact absurd hc (not_isContent_begin _)
    | closing => exact absurd hc (not_isContent_end _)
  | opening =>
    cases h' with
    | content hc => exact absurd hc (not_isContent_begin _)
    | opening => rfl
  | closing =>
    cases h' with
    | content hc => exact absurd hc (not_isContent_end _)
    | closing => rfl

/-! ### Several lines -/

namespace Leaves

variable {block next last : Option String} {xs ys : List Delivery}

theorem append (h : Leaves block xs next) (h' : Leaves next ys last) :
    Leaves block (xs ++ ys) last := by
  induction h with
  | nil => exact h'
  | cons hf _ ih => exact .cons hf (ih h')

theorem of_append (h : Leaves block (xs ++ ys) last) :
    ∃ next, Leaves block xs next ∧ Leaves next ys last := by
  induction xs generalizing block with
  | nil => exact ⟨block, .nil, h⟩
  | cons x xs ih =>
    cases h with
    | cons hf h =>
      obtain ⟨next, hx, hy⟩ := ih h
      exact ⟨next, .cons hf hx, hy⟩

theorem unique (h : Leaves block xs next) (h' : Leaves block xs last) : next = last := by
  induction h with
  | nil =>
    cases h'
    rfl
  | cons hf _ ih =>
    cases h' with
    | cons hf' h' =>
      obtain rfl := hf.unique hf'
      exact ih h'

theorem of_content (block : Option String) (h : ∀ entry ∈ xs, IsContent entry.2) :
    Leaves block xs block := by
  induction xs with
  | nil => exact .nil
  | cons x xs ih =>
    obtain ⟨hx, hxs⟩ := List.forall_mem_cons.mp h
    exact .cons (.content hx) (ih hxs)

end Leaves

theorem leaves_or_breach (block : Option String) (lines : List Delivery) :
    (∃ last, Leaves block lines last) ∨
      ∃ before line tokens rest next fault, lines = before ++ (line, tokens) :: rest ∧
        Leaves block before next ∧ Breach next tokens fault := by
  induction lines generalizing block with
  | nil => exact .inl ⟨block, .nil⟩
  | cons entry lines ih =>
    obtain ⟨line, tokens⟩ := entry
    rcases follows_or_breach block tokens with ⟨next, hf⟩ | ⟨fault, hb⟩
    · rcases ih next with ⟨last, h⟩ | ⟨before, line', tokens', rest, next', fault, rfl, h, hb⟩
      · exact .inl ⟨last, .cons hf h⟩
      · exact .inr ⟨(line, tokens) :: before, line', tokens', rest, next', fault, rfl, .cons hf h, hb⟩
    · exact .inr ⟨[], line, tokens, lines, block, fault, rfl, .nil, hb⟩

/-! ### The grammar, line by line -/

namespace Grouped

theorem leaves {lines : List Delivery} {doc : Document} (h : Grouped lines doc) :
    Leaves none lines none := by
  induction h with
  | nil => exact .nil
  | content hc _ ih => exact .cons (.content hc) ih
  | block hinside _ ih =>
    exact .cons .opening ((Leaves.of_content _ hinside).append (.cons .closing ih))

theorem append {xs ys : List Delivery} {d e : Document} (h : Grouped xs d) (h' : Grouped ys e) :
    Grouped (xs ++ ys) ⟨d.globals ++ e.globals, d.devices ++ e.devices⟩ := by
  induction h with
  | nil => exact h'
  | content hc _ ih => exact .content hc ih
  | block hinside _ ih =>
    rw [List.cons_append, List.append_assoc, List.cons_append]
    exact .block hinside ih

end Grouped

/-- The lines are some in the grammar, followed by an open block of the type given if any. -/
inductive Outlined : List Delivery → Option String → Prop
  | outside {lines doc} : Grouped lines doc → Outlined lines none
  | inside {lines doc line type extra inside} : Grouped lines doc →
      (∀ entry ∈ inside, IsContent entry.2) →
      Outlined (lines ++ (line, beginWord :: type :: extra) :: inside) (some type)

namespace Outlined

variable {lines : List Delivery} {block next : Option String}

theorem follows {line : Line} {tokens : List String} (h : Outlined lines block)
    (hf : Follows block tokens next) : Outlined (lines ++ [(line, tokens)]) next := by
  cases h with
  | outside hg =>
    cases hf with
    | content hc => exact .outside (hg.append (.content hc .nil))
    | opening => exact .inside hg (by simp)
  | inside hg hinside =>
    cases hf with
    | content hc =>
      rw [List.append_assoc, List.cons_append]
      refine .inside hg ?_
      intro entry he
      rcases List.mem_append.mp he with he | he
      · exact hinside entry he
      · obtain rfl := List.mem_singleton.mp he
        exact hc
    | closing =>
      rw [List.append_assoc, List.cons_append]
      exact .outside (hg.append (.block hinside .nil))

theorem leaves {rest : List Delivery} (h : Outlined lines block) (hl : Leaves block rest next) :
    Outlined (lines ++ rest) next := by
  induction hl generalizing lines with
  | nil =>
    rw [List.append_nil]
    exact h
  | cons hf _ ih =>
    rw [List.append_cons]
    exact ih (h.follows hf)

theorem viable (h : Outlined lines block) : Viable lines := by
  cases h with
  | outside hg => exact ⟨[], _, by rw [List.append_nil]; exact hg⟩
  | @inside lines doc line type extra inside hg hinside =>
    have hblock : Grouped ((line, beginWord :: type :: extra) ::
        (inside ++ [(line, [endWord, type])])) _ := .block hinside .nil
    have hclosed := hg.append hblock
    rw [← List.cons_append, ← List.append_assoc] at hclosed
    exact ⟨_, _, hclosed⟩

end Outlined

theorem Leaves.outlined {lines : List Delivery} {block : Option String}
    (h : Leaves none lines block) : Outlined lines block :=
  (Outlined.outside .nil).leaves h

/-- Lines are in the grammar just if they follow each other and leave no block open. -/
theorem exists_grouped_iff {lines : List Delivery} :
    (∃ doc, Grouped lines doc) ↔ Leaves none lines none := by
  constructor
  · rintro ⟨doc, h⟩
    exact h.leaves
  · intro h
    cases h.outlined with
    | outside hg => exact ⟨_, hg⟩

theorem viable_iff {lines : List Delivery} : Viable lines ↔ ∃ block, Leaves none lines block := by
  constructor
  · rintro ⟨rest, doc, h⟩
    obtain ⟨block, hb, -⟩ := h.leaves.of_append
    exact ⟨block, hb⟩
  · rintro ⟨block, h⟩
    exact h.outlined.viable

theorem not_viable_iff {before : List Delivery} {line : Line} {tokens : List String}
    {block : Option String} (h : Leaves none before block) :
    ¬ Viable (before ++ [(line, tokens)]) ↔ ∃ fault, Breach block tokens fault := by
  rw [viable_iff]
  constructor
  · intro hno
    rcases follows_or_breach block tokens with ⟨next, hf⟩ | hb
    · exact absurd ⟨next, h.append (.cons hf .nil)⟩ hno
    · exact hb
  · rintro ⟨fault, hb⟩ ⟨last, hl⟩
    obtain ⟨block', hl', hrest⟩ := hl.of_append
    obtain rfl := h.unique hl'
    cases hrest with
    | cons hf _ => exact hf.not_breach hb

/-- What is wrong with lines that are not in the grammar, and which line is blamed: the first with
which they begin none that is, or else the last one, after which a block is still open. -/
inductive Rejected (lines : List Delivery) : Fault → Option Line → Prop
  | breach {before line tokens rest block fault} : lines = before ++ (line, tokens) :: rest →
      Viable before → ¬ Viable (before ++ [(line, tokens)]) → Leaves none before block →
      Breach block tokens fault → Rejected lines fault (some line)
  | unterminated {type} : Leaves none lines (some type) →
      Rejected lines (.unterminatedBlock type) (lines.getLast?.map Prod.fst)

theorem grouped_or_rejected (lines : List Delivery) :
    (∃ doc, Grouped lines doc) ∨ ∃ fault site, Rejected lines fault site := by
  rcases leaves_or_breach none lines with
    ⟨block, h⟩ | ⟨before, line, tokens, rest, block, fault, rfl, h, hb⟩
  · cases block with
    | none => exact .inl (exists_grouped_iff.mpr h)
    | some type => exact .inr ⟨_, _, .unterminated h⟩
  · have hviable : Viable before := viable_iff.mpr ⟨block, h⟩
    have hnot : ¬ Viable (before ++ [(line, tokens)]) := (not_viable_iff h).mpr ⟨fault, hb⟩
    exact .inr ⟨fault, some line, .breach rfl hviable hnot h hb⟩

end DeviceDescription
