import DeviceDescription.Text.Printable

/-!
# Quoted text

A text between double quotes in which the quote, the backslash and everything that would not show is
written as an escape: NUL, tab, line feed and carriage return by a digit or letter after a
backslash, any other character by its code point in hexadecimal between braces.
-/

namespace DeviceDescription.Quoted

def escapeChar (c : Char) : List Char :=
  if c = '\x00' then ['\\', '0']
  else if c = '\t' then ['\\', 't']
  else if c = '\n' then ['\\', 'n']
  else if c = '\r' then ['\\', 'r']
  else if c = '"' then ['\\', '"']
  else if c = '\\' then ['\\', '\\']
  else if isPrintable c then [c]
  else ['\\', 'u', '\x7b'] ++ Nat.toDigits 16 c.toNat ++ ['\x7d']

def encode (s : String) : String :=
  String.ofList ('"' :: s.toList.flatMap escapeChar ++ ['"'])

end DeviceDescription.Quoted
