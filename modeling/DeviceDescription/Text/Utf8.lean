/-!
# UTF-8 with ill-formed input

A byte sequence is cut into *pieces*: characters, and the parts that belong to none. The cut is made
by a machine that reads one byte at a time and remembers at most one unfinished character. A part
that can no longer become a character ends before the byte that rules it out, which is then read
afresh; so every ill-formed part is as long as the Unicode standard's "maximal subpart".

Strict decoding asks that all pieces are characters and otherwise names the first one that is not;
lossy decoding puts U+FFFD in the place of each part. Both read the same pieces.
-/

namespace DeviceDescription.Utf8

/-- The start of a character: its bytes so far, the number of bytes still owed, the interval that
holds the next one, and the bits collected. -/
structure Partial where
  taken : List UInt8
  owed : Nat
  low : UInt8
  high : UInt8
  bits : Nat

inductive Piece where
  | char (c : Char)
  /-- Bytes that no further byte could have completed. -/
  | illFormed (bytes : List UInt8)
  /-- The start of a character, cut off by the end of the input. -/
  | truncated (bytes : List UInt8)
  deriving DecidableEq

/-- What a byte means where a character may start. -/
def start (b : UInt8) : List Piece × Option Partial :=
  if b < 0x80 then ([.char (Char.ofNat b.toNat)], none)
  else if 0xc2 ≤ b ∧ b ≤ 0xdf then ([], some ⟨[b], 1, 0x80, 0xbf, b.toNat % 0x20⟩)
  else if b = 0xe0 then ([], some ⟨[b], 2, 0xa0, 0xbf, 0⟩)
  else if b = 0xed then ([], some ⟨[b], 2, 0x80, 0x9f, 0xd⟩)
  else if 0xe1 ≤ b ∧ b ≤ 0xef then ([], some ⟨[b], 2, 0x80, 0xbf, b.toNat % 0x10⟩)
  else if b = 0xf0 then ([], some ⟨[b], 3, 0x90, 0xbf, 0⟩)
  else if 0xf1 ≤ b ∧ b ≤ 0xf3 then ([], some ⟨[b], 3, 0x80, 0xbf, b.toNat % 0x08⟩)
  else if b = 0xf4 then ([], some ⟨[b], 3, 0x80, 0x8f, 4⟩)
  else ([.illFormed [b]], none)

/-- The character so far with one more byte of it. -/
def Partial.extend (p : Partial) (b : UInt8) : List Piece × Option Partial :=
  let bits := p.bits * 0x40 + b.toNat % 0x40
  if p.owed ≤ 1 then ([.char (Char.ofNat bits)], none)
  else ([], some ⟨p.taken ++ [b], p.owed - 1, 0x80, 0xbf, bits⟩)

def step : Option Partial → UInt8 → List Piece × Option Partial
  | none, b => start b
  | some p, b =>
    if p.low ≤ b ∧ b ≤ p.high then p.extend b
    else (.illFormed p.taken :: (start b).1, (start b).2)

def piecesFrom : Option Partial → List UInt8 → List Piece
  | none, [] => []
  | some p, [] => [.truncated p.taken]
  | state, b :: rest => (step state b).1 ++ piecesFrom (step state b).2 rest

def pieces (bytes : List UInt8) : List Piece := piecesFrom none bytes

/-- Why and where a byte sequence is no text: the index of the first part that is no character, and
the length of that part unless it is cut off by the end. -/
structure Flaw where
  index : Nat
  width : Option Nat
  deriving DecidableEq

def Flaw.message (flaw : Flaw) : String :=
  match flaw.width with
  | some width => s!"invalid utf-8 sequence of {width} bytes from index {flaw.index}"
  | none => s!"incomplete utf-8 byte sequence from index {flaw.index}"

/-- The characters of pieces that start at byte `index`. -/
def charsFrom (index : Nat) : List Piece → Except Flaw (List Char)
  | [] => .ok []
  | .char c :: rest => (charsFrom (index + c.utf8Size) rest).map (c :: ·)
  | .illFormed bytes :: _ => .error ⟨index, some bytes.length⟩
  | .truncated _ :: _ => .error ⟨index, none⟩

def decode (bytes : List UInt8) : Except Flaw String :=
  (charsFrom 0 (pieces bytes)).map String.ofList

/-- The character shown for a piece. -/
def Piece.shown : Piece → Char
  | .char c => c
  | .illFormed _ | .truncated _ => '\ufffd'

def decodeLossy (bytes : List UInt8) : String :=
  String.ofList ((pieces bytes).map Piece.shown)

/-- The bytes of a text. -/
def encode (s : String) : List UInt8 := s.toList.flatMap String.utf8EncodeChar

end DeviceDescription.Utf8
