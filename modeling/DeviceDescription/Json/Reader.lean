import DeviceDescription.Json

/-!
# Reading JSON

A reader takes a value off the front of a list of characters and returns what is left. Between
tokens only the space, tab, line feed and carriage return may stand. Arrays and objects have no
trailing comma, numbers no leading zero, and characters below the space occur in strings only as
escapes.

An escape of four hexadecimal digits denotes a UTF-16 unit. Two that make a surrogate pair denote
one character; a surrogate without its other half denotes none, and the string is then no text.
-/

namespace DeviceDescription.Json

def isSpace (c : Char) : Bool := c == ' ' || c == '\n' || c == '\t' || c == '\r'

def skipSpace (cs : List Char) : List Char := cs.dropWhile isSpace

/-! ### Numbers -/

/-- The digits at the front; there must be one. -/
def digits? (cs : List Char) : Option (List Char × List Char) :=
  match cs.takeWhile Char.isDigit with
  | [] => none
  | c :: digits => some (c :: digits, cs.dropWhile Char.isDigit)

/-- A whole number without a leading zero. -/
def whole? (cs : List Char) : Option (List Char × List Char) :=
  match cs with
  | '0' :: rest => some (['0'], rest)
  | _ => digits? cs

/-- What is left after a fraction, if there is one. -/
def skipFraction (cs : List Char) : Option (List Char) :=
  match cs with
  | '.' :: rest => (digits? rest).map (·.2)
  | _ => some cs

/-- What is left after an exponent, if there is one. -/
def skipExponent (cs : List Char) : Option (List Char) :=
  match cs with
  | c :: rest =>
    if c = 'e' ∨ c = 'E' then
      match rest with
      | '+' :: rest | '-' :: rest => (digits? rest).map (·.2)
      | _ => (digits? rest).map (·.2)
    else some cs
  | [] => some cs

def naturalOfDigits (digits : List Char) : Nat :=
  digits.foldl (fun n c => 10 * n + (c.toNat - '0'.toNat)) 0

/-- Whether a fraction or an exponent follows. -/
def isScaled : List Char → Bool
  | c :: _ => c == '.' || c == 'e' || c == 'E'
  | [] => false

def number? (cs : List Char) : Option (Json × List Char) :=
  match cs with
  | '-' :: rest =>
    (whole? rest).bind fun (_, rest) =>
      ((skipFraction rest).bind skipExponent).map fun rest => (.otherNumber, rest)
  | _ =>
    (whole? cs).bind fun (digits, rest) =>
      if isScaled rest then
        ((skipFraction rest).bind skipExponent).map fun rest => (.otherNumber, rest)
      else some (.natural (naturalOfDigits digits), rest)

/-! ### Strings -/

def hexValue? (c : Char) : Option Nat :=
  if '0' ≤ c ∧ c ≤ '9' then some (c.toNat - '0'.toNat)
  else if 'a' ≤ c ∧ c ≤ 'f' then some (c.toNat - 'a'.toNat + 10)
  else if 'A' ≤ c ∧ c ≤ 'F' then some (c.toNat - 'A'.toNat + 10)
  else none

def unit? (a b c d : Char) : Option Nat := do
  let a ← hexValue? a
  let b ← hexValue? b
  let c ← hexValue? c
  let d ← hexValue? d
  some (((a * 16 + b) * 16 + c) * 16 + d)

/-- What a letter after a backslash denotes. -/
def escaped? (c : Char) : Option Char :=
  match c with
  | '"' => some '"'
  | '\\' => some '\\'
  | '/' => some '/'
  | 'b' => some '\x08'
  | 'f' => some '\x0c'
  | 'n' => some '\n'
  | 'r' => some '\r'
  | 't' => some '\t'
  | _ => none

/-- The rest of a string after its opening quote: the code points and units it denotes, and what
follows the closing quote. The units read so far are given last first. -/
def units? (sofar : List Nat) : List Char → Option (List Nat × List Char)
  | [] => none
  | '"' :: rest => some (sofar.reverse, rest)
  | '\\' :: 'u' :: a :: b :: c :: d :: rest =>
    match unit? a b c d with
    | some n => units? (n :: sofar) rest
    | none => none
  | '\\' :: e :: rest =>
    match escaped? e with
    | some c => units? (c.toNat :: sofar) rest
    | none => none
  | c :: rest => if c.toNat < 0x20 ∨ c = '\\' then none else units? (c.toNat :: sofar) rest

def isHighSurrogate (n : Nat) : Bool := 0xd800 ≤ n && n ≤ 0xdbff

def isLowSurrogate (n : Nat) : Bool := 0xdc00 ≤ n && n ≤ 0xdfff

/-- The characters that code points and units denote. -/
def charsOfUnits? : List Nat → Option (List Char)
  | [] => some []
  | n :: rest =>
    if isHighSurrogate n then
      match rest with
      | m :: rest =>
        if isLowSurrogate m then
          (charsOfUnits? rest).map
            (Char.ofNat (0x10000 + (n - 0xd800) * 0x400 + (m - 0xdc00)) :: ·)
        else none
      | [] => none
    else if isLowSurrogate n then none
    else (charsOfUnits? rest).map (Char.ofNat n :: ·)

/-- The rest of a string after its opening quote. -/
def string? (cs : List Char) : Option (Option String × List Char) :=
  (units? [] cs).map fun (units, rest) => ((charsOfUnits? units).map String.ofList, rest)

/-! ### Values -/

mutual

/-- A value, after white space. The first argument bounds the depth of the recursion. -/
def value? : Nat → List Char → Option (Json × List Char)
  | 0, _ => none
  | bound + 1, cs =>
    match skipSpace cs with
    | 'n' :: 'u' :: 'l' :: 'l' :: rest => some (.null, rest)
    | 't' :: 'r' :: 'u' :: 'e' :: rest => some (.bool true, rest)
    | 'f' :: 'a' :: 'l' :: 's' :: 'e' :: rest => some (.bool false, rest)
    | '"' :: rest => (string? rest).map fun (text, rest) => (.string text, rest)
    | '[' :: rest =>
      match skipSpace rest with
      | ']' :: rest => some (.array [], rest)
      | _ => (items? bound rest).map fun (items, rest) => (.array items, rest)
    | '\x7b' :: rest =>
      match skipSpace rest with
      | '\x7d' :: rest => some (.object [], rest)
      | _ => (members? bound rest).map fun (members, rest) => (.object members, rest)
    | rest => number? rest

/-- The items of an array up to its closing bracket. -/
def items? : Nat → List Char → Option (List Json × List Char)
  | 0, _ => none
  | bound + 1, cs => do
    let (item, rest) ← value? bound cs
    match skipSpace rest with
    | ',' :: rest => (items? bound rest).map fun (items, rest) => (item :: items, rest)
    | ']' :: rest => some ([item], rest)
    | _ => none

/-- The members of an object up to its closing brace. -/
def members? : Nat → List Char → Option (List (Option String × Json) × List Char)
  | 0, _ => none
  | bound + 1, cs =>
    match skipSpace cs with
    | '"' :: rest => do
      let (name, rest) ← string? rest
      match skipSpace rest with
      | ':' :: rest => do
        let (value, rest) ← value? bound rest
        match skipSpace rest with
        | ',' :: rest =>
          (members? bound rest).map fun (members, rest) => ((name, value) :: members, rest)
        | '\x7d' :: rest => some ([(name, value)], rest)
        | _ => none
      | _ => none
    | _ => none

end

/-- The value that a text is, with white space around it. Each level of the recursion but every
second takes a character, so twice the length is bound enough. -/
def parse? (s : String) : Option Json :=
  match value? (2 * s.toList.length + 2) s.toList with
  | some (value, rest) => if (skipSpace rest).isEmpty then some value else none
  | none => none

end DeviceDescription.Json
