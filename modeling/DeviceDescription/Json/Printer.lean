import DeviceDescription.Json

/-!
# Printing JSON

One item or member a line, each level indented by two spaces; an empty array or object has no line
of its own inside. In strings the quote, the backslash and the characters below the space are
escaped, by a letter where JSON has one; every other character stands for itself.
-/

namespace DeviceDescription.Json

def escapeChar (c : Char) : List Char :=
  if c = '"' then ['\\', '"']
  else if c = '\\' then ['\\', '\\']
  else if c = '\x08' then ['\\', 'b']
  else if c = '\x0c' then ['\\', 'f']
  else if c = '\n' then ['\\', 'n']
  else if c = '\r' then ['\\', 'r']
  else if c = '\t' then ['\\', 't']
  else if c.toNat < 0x20 then
    ['\\', 'u', '0', '0', Nat.digitChar (c.toNat / 16), Nat.digitChar (c.toNat % 16)]
  else [c]

def quote (s : String) : List Char := '"' :: s.toList.flatMap escapeChar ++ ['"']

/-- A new line at an indentation of `depth` levels. -/
def lineBreak (depth : Nat) : List Char := '\n' :: List.replicate (2 * depth) ' '

mutual

/-- The text of a value whose first line stands at `depth` levels. What has no reading is printed as
`null`. -/
def render (depth : Nat) : Json → List Char
  | .null | .otherNumber | .string none => "null".toList
  | .bool true => "true".toList
  | .bool false => "false".toList
  | .natural n => Nat.toDigits 10 n
  | .string (some s) => quote s
  | .array [] => ['[', ']']
  | .array (item :: items) =>
    '[' :: lineBreak (depth + 1) ++ render (depth + 1) item ++ renderItems depth items
  | .object [] => ['\x7b', '\x7d']
  | .object (member :: members) =>
    '\x7b' :: lineBreak (depth + 1) ++ renderMember depth member ++ renderMembers depth members

/-- The text after the first item of an array. -/
def renderItems (depth : Nat) : List Json → List Char
  | [] => lineBreak depth ++ [']']
  | item :: items =>
    ',' :: lineBreak (depth + 1) ++ render (depth + 1) item ++ renderItems depth items

def renderMember (depth : Nat) : Option String × Json → List Char
  | (name, value) => quote (name.getD "") ++ [':', ' '] ++ render (depth + 1) value

/-- The text after the first member of an object. -/
def renderMembers (depth : Nat) : List (Option String × Json) → List Char
  | [] => lineBreak depth ++ ['\x7d']
  | member :: members =>
    ',' :: lineBreak (depth + 1) ++ renderMember depth member ++ renderMembers depth members

end

def pretty (value : Json) : String := String.ofList (render 0 value)

end DeviceDescription.Json
