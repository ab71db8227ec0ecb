import DeviceDescription.Token.Scan

/-!
# Writing tokens as a line

A token is written between quotes when it could not stand as a word: when it is empty, or holds a
blank or a `#`. Tokens are separated by one space. Quotes have no escape, so a token that holds a
quote, or a `#`, is written but not read back.
-/

namespace DeviceDescription

def needsQuotes (token : String) : Bool :=
  token.toList.isEmpty || token.toList.any (fun c => isBlank c || c == '#')

def writtenToken (token : String) : String :=
  if needsQuotes token then "\"" ++ token ++ "\"" else token

def writtenLine (tokens : List String) : String :=
  String.intercalate " " (tokens.map writtenToken)

end DeviceDescription
