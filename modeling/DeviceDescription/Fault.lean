import DeviceDescription.Token.Scan

/-!
# Faults

What can be wrong with a device description: files that cannot be opened or read, includes that run
in a circle or too deep, quotes, directives with too few or too many arguments, and blocks that do
not match. `Fault.message` is the wording.
-/

namespace DeviceDescription

/-- The first token of an include line. -/
def includeWord : String := "include"

/-- The first token of a line that opens a block. -/
def beginWord : String := "begin"

/-- The first token of a line that closes a block. -/
def endWord : String := "end"

inductive Fault where
  | cannotOpen (path reason : String)
  | readFailed (path reason : String)
  | inclusionCycle (path : String)
  | includeTooDeep (path : String) (limit : Nat)
  | unclosedQuote (column : Nat)
  | misplacedQuote (column : Nat)
  | missingArgument (directive : String)
  | extraArgument (directive token : String)
  | nestedBlock (opened found : String)
  | unmatchedEnd (opened : Option String) (found : String)
  | unterminatedBlock (opened : String)
  deriving DecidableEq, Repr

def Fault.ofQuoteError : QuoteError → Fault
  | .unclosed column => .unclosedQuote column
  | .misplaced column => .misplacedQuote column

def Fault.message : Fault → String
  | .cannotOpen path reason => s!"cannot open file {path}: {reason}"
  | .readFailed path reason => s!"failed reading {path}: {reason}"
  | .inclusionCycle path => s!"inclusion cycle: {path} is already being loaded"
  | .includeTooDeep path limit => s!"include nesting deeper than {limit} while opening {path}"
  | .unclosedQuote column => s!"unclosed quote opened at column {column}"
  | .misplacedQuote column => s!"illegal quote placement at column {column}"
  | .missingArgument directive => s!"'{directive}' requires an argument"
  | .extraArgument directive token =>
    s!"'{directive}' takes a single argument, found extra token '{token}'"
  | .nestedBlock opened found => s!"cannot begin '{found}' while '{opened}' is still open"
  | .unmatchedEnd (some opened) found => s!"'end {found}' does not match open block '{opened}'"
  | .unmatchedEnd none found => s!"'end {found}' without a matching 'begin'"
  | .unterminatedBlock opened => s!"device block '{opened}' is never closed"

def QuoteError.message (e : QuoteError) : String := (Fault.ofQuoteError e).message

end DeviceDescription
