import DeviceDescription.Json

/-!
# Records in JSON

A record with declared fields is written as an object. It is read from an object in which each field
occurs at most once, in any order and among others that are passed over; or from an array that holds
the values of the fields in the order of their declaration. Whether a field may be missing is for
the reader of the record to say, so a missing one is given as `none`.
-/

namespace DeviceDescription.Json

/-- The members of an object whose names are all text. -/
def namedMembers? (members : List (Option String × Json)) : Option (List (String × Json)) :=
  members.mapM fun (name, value) => name.map fun name => (name, value)

/-- The values of the field `name`. -/
def valuesOf (name : String) (members : List (String × Json)) : List Json :=
  (members.filter (·.1 == name)).map (·.2)

/-- The value of each declared field, if there is one. -/
def fields? (names : List String) : Json → Option (List (Option Json))
  | .object members => do
    let members ← namedMembers? members
    let values := names.map (valuesOf · members)
    if values.all (·.length ≤ 1) then some (values.map List.head?) else none
  | .array items =>
    if items.length ≤ names.length then
      some (items.map some ++ List.replicate (names.length - items.length) none)
    else none
  | _ => none

def bool? : Json → Option Bool
  | .bool b => some b
  | _ => none

/-- A natural number of at most 64 bits. -/
def word? : Json → Option Nat
  | .natural n => if n < UInt64.size then some n else none
  | _ => none

def text? : Json → Option String
  | .string text => text
  | _ => none

def list? (read : Json → Option α) : Json → Option (List α)
  | .array items => items.mapM read
  | _ => none

/-- A choice among names: the name as a string, or as the only member of an object, with the value
`null`. -/
def choice? : Json → Option String
  | .string name => name
  | .object [(name, .null)] => name
  | _ => none

end DeviceDescription.Json
