import DeviceDescription.Text.Utf8

/-!
# Physical lines

A file is cut after each newline; one carriage return before the newline, or at the end of the file,
belongs to the line end and not to the line. A file that ends in a newline has no further, empty
line after it.
-/

namespace DeviceDescription

/-- A line of a file, with the path text that the file was asked for by and the line's number from
one. Of a line that is not UTF-8 the text is the lossy reading. -/
structure Line where
  file : String
  number : Nat
  text : String
  deriving DecidableEq, Repr

def newline : UInt8 := 0x0a

def carriageReturn : UInt8 := 0x0d

/-- The pieces of a byte sequence between newlines; none after the last newline. -/
def splitLines (bytes : List UInt8) : List (List UInt8) :=
  match bytes with
  | [] => []
  | b :: rest =>
    let line := (b :: rest).takeWhile (· != newline)
    line :: splitLines ((b :: rest).drop (line.length + 1))
termination_by bytes.length
decreasing_by simp only [List.length_drop, List.length_cons]; omega

/-- A line without the carriage return at its end, if it has one. -/
def dropReturn (line : List UInt8) : List UInt8 :=
  if line.getLast? = some carriageReturn then line.dropLast else line

def fileLines (bytes : List UInt8) : List (List UInt8) := (splitLines bytes).map dropReturn

end DeviceDescription
