/-!
# JSON values

Values as far as records are read from them. A number is kept only if it is written as a plain
natural number, and a string only if its escapes make Unicode text; other well-formed numbers and
strings are values without a reading. The members of an object keep their order and repetitions.
-/

namespace DeviceDescription

inductive Json where
  | null
  | bool (b : Bool)
  | natural (n : Nat)
  /-- A number with a sign, a fraction or an exponent. -/
  | otherNumber
  /-- A string; no text if an escape leaves half of a surrogate pair alone. -/
  | string (text : Option String)
  | array (items : List Json)
  | object (members : List (Option String × Json))

namespace Json

/-- A string that is text. -/
def text (s : String) : Json := .string (some s)

/-- The object with these members. -/
def record (members : List (String × Json)) : Json :=
  .object (members.map fun (name, value) => (some name, value))

end Json

end DeviceDescription
