import DeviceDescription.Text.Blank

/-!
# Counted trimming

Trimming returns the rest of the text together with the number of characters removed, so that a
position in the rest can be carried back to the whole. When both ends are trimmed the start goes
first: of a text that is blank throughout, every character counts as leading.
-/

namespace DeviceDescription

def trimStart (s : String) : String × Nat :=
  (String.ofList (s.toList.dropWhile isBlank), (s.toList.takeWhile isBlank).length)

def trimEnd (s : String) : String × Nat :=
  (String.ofList (s.toList.reverse.dropWhile isBlank).reverse,
    (s.toList.reverse.takeWhile isBlank).length)

/-- The text without blanks at its ends, the number of leading and that of trailing blanks. -/
def trim (s : String) : String × Nat × Nat :=
  let (rest, leading) := trimStart s
  let (rest, trailing) := trimEnd rest
  (rest, leading, trailing)

end DeviceDescription
