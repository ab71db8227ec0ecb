import DeviceDescription.Json
import Mathlib.Tactic.Common

/-!
# The grammar of JSON

`Spells` says which texts spell a value. It is the grammar that JSON is defined by, with the rules
for the parts of arrays and objects beside that for values, and knows nothing of reading: white
space may stand around elements and names, a character in a string for itself, behind a backslash
or as the number of a UTF-16 unit. A string whose units make no text is well formed all the same.
-/

namespace DeviceDescription.Json

/-- White space, of which there need not be any. -/
def AllSpace (w : List Char) : Prop := ∀ c ∈ w, c = ' ' ∨ c = '\n' ∨ c = '\t' ∨ c = '\r'

/-! ### Numbers -/

def IsDigits (w : List Char) : Prop := w ≠ [] ∧ ∀ c ∈ w, c.isDigit = true

inductive IsFraction : List Char → Prop
  | absent : IsFraction []
  | digits {w} : IsDigits w → IsFraction ('.' :: w)

inductive IsExponent : List Char → Prop
  | absent : IsExponent []
  | digits {e sign w} : e = 'e' ∨ e = 'E' → sign = [] ∨ sign = ['+'] ∨ sign = ['-'] → IsDigits w →
      IsExponent (e :: (sign ++ w))

/-! ### Strings -/

/-- The characters that have an escape of one letter. -/
def letterEscapes : List (Char × Char) :=
  [('"', '"'), ('\\', '\\'), ('/', '/'), ('b', '\x08'), ('f', '\x0c'), ('n', '\n'), ('r', '\r'),
    ('t', '\t')]

/-- A hexadecimal digit, as a capital letter or not. -/
def IsHexDigit (c : Char) (n : Nat) : Prop :=
  n < 16 ∧ (c = n.digitChar ∨ c = n.digitChar.toUpper)

/-- What a part of a string stands for: the number of a character or of a UTF-16 unit. -/
inductive SpellsUnit : List Char → Nat → Prop
  | plain {c : Char} : 0x20 ≤ c.toNat → c ≠ '"' → c ≠ '\\' → SpellsUnit [c] c.toNat
  | letter {e c : Char} : (e, c) ∈ letterEscapes → SpellsUnit ['\\', e] c.toNat
  | number {a b c d : Char} {i j k l : Nat} :
      IsHexDigit a i → IsHexDigit b j → IsHexDigit c k → IsHexDigit d l →
      SpellsUnit ['\\', 'u', a, b, c, d] (0x1000 * i + 0x100 * j + 0x10 * k + l)

inductive SpellsUnits : List Char → List Nat → Prop
  | nil : SpellsUnits [] []
  | cons {part rest n units} : SpellsUnit part n → SpellsUnits rest units →
      SpellsUnits (part ++ rest) (n :: units)

/-- The numbers stand for the characters: each for one, or two that are a surrogate pair for one
beyond U+FFFF. -/
inductive Denotes16 : List Nat → List Char → Prop
  | nil : Denotes16 [] []
  | char (c : Char) {units cs} : Denotes16 units cs → Denotes16 (c.toNat :: units) (c :: cs)
  | pair {high low : Nat} (c : Char) {units cs} : high < 0x400 → low < 0x400 →
      c.toNat = 0x10000 + 0x400 * high + low → Denotes16 units cs →
      Denotes16 ((0xd800 + high) :: (0xdc00 + low) :: units) (c :: cs)

/-- A string, which is text if what stands between its quotes makes one. -/
inductive SpellsString : List Char → Option String → Prop
  | text {inner units s} : SpellsUnits inner units → Denotes16 units s.toList →
      SpellsString ('"' :: (inner ++ ['"'])) (some s)
  | noText {inner units} : SpellsUnits inner units → (∀ cs, ¬ Denotes16 units cs) →
      SpellsString ('"' :: (inner ++ ['"'])) none

/-! ### Values -/

/-- What a text may spell. Elements and members have the white space around them. -/
inductive Phrase where
  | value (value : Json)
  | element (value : Json)
  | items (items : List Json)
  | member (member : Option String × Json)
  | members (members : List (Option String × Json))

inductive Spells : List Char → Phrase → Prop
  | null : Spells ['n', 'u', 'l', 'l'] (.value .null)
  | true : Spells ['t', 'r', 'u', 'e'] (.value (.bool true))
  | false : Spells ['f', 'a', 'l', 's', 'e'] (.value (.bool false))
  | natural (n : Nat) : Spells (Nat.toDigits 10 n) (.value (.natural n))
  | negative {n fraction exponent} : IsFraction fraction → IsExponent exponent →
      Spells ('-' :: (Nat.toDigits 10 n ++ (fraction ++ exponent))) (.value .otherNumber)
  | scaled {n fraction exponent} : IsFraction fraction → IsExponent exponent →
      fraction ++ exponent ≠ [] →
      Spells (Nat.toDigits 10 n ++ (fraction ++ exponent)) (.value .otherNumber)
  | string {text s} : SpellsString text s → Spells text (.value (.string s))
  | emptyArray {w} : AllSpace w → Spells ('[' :: (w ++ [']'])) (.value (.array []))
  | array {inner items} : Spells inner (.items items) →
      Spells ('[' :: (inner ++ [']'])) (.value (.array items))
  | emptyObject {w} : AllSpace w → Spells ('\x7b' :: (w ++ ['\x7d'])) (.value (.object []))
  | object {inner members} : Spells inner (.members members) →
      Spells ('\x7b' :: (inner ++ ['\x7d'])) (.value (.object members))
  | element {before text after value} : AllSpace before → Spells text (.value value) →
      AllSpace after → Spells (before ++ (text ++ after)) (.element value)
  | lastItem {text value} : Spells text (.element value) → Spells text (.items [value])
  | moreItems {text rest value items} : Spells text (.element value) → Spells rest (.items items) →
      Spells (text ++ ',' :: rest) (.items (value :: items))
  | member {before name after text name? value} : AllSpace before → SpellsString name name? →
      AllSpace after → Spells text (.element value) →
      Spells (before ++ (name ++ (after ++ ':' :: text))) (.member (name?, value))
  | lastMember {text member} : Spells text (.member member) → Spells text (.members [member])
  | moreMembers {text rest member members} : Spells text (.member member) →
      Spells rest (.members members) → Spells (text ++ ',' :: rest) (.members (member :: members))

end DeviceDescription.Json
