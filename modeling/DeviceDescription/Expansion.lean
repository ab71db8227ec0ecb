import DeviceDescription.Diagnostic
import DeviceDescription.Disk

/-!
# Include expansion

The expansion of a file is the list of its lines in order, each include line followed at once by the
expansion of the file it names. It stops at the first fault; the lines up to there remain.

An include is refused when its file is already being expanded, that is, when its key is among those
of the files on the way from the root; and otherwise when it would be deeper than the limit. The
recursion is on the number of levels still allowed, which is the limit at the root and one less at
each include.
-/

namespace DeviceDescription

/-- A fault and the line it is blamed on. -/
structure Stop where
  fault : Fault
  site : Option Line
  deriving DecidableEq, Repr

/-- The lines gathered, the number of files opened for them, and what ended the work early. -/
structure Expansion where
  lines : List Line
  opened : Nat
  stop : Option Stop
  deriving DecidableEq, Repr

namespace Expansion

def empty : Expansion := ⟨[], 0, none⟩

def ofLine (line : Line) : Expansion := ⟨[line], 0, none⟩

def stopped (fault : Fault) (site : Option Line) : Expansion := ⟨[], 0, some ⟨fault, site⟩⟩

/-- One expansion and then another, which is not begun if the first has stopped. -/
def andThen (first : Expansion) (second : Unit → Expansion) : Expansion :=
  match first.stop with
  | some _ => first
  | none =>
    let second := second ()
    ⟨first.lines ++ second.lines, first.opened + second.opened, second.stop⟩

/-- The same expansion with one more file opened. -/
def opening (e : Expansion) : Expansion := { e with opened := e.opened + 1 }

end Expansion

/-- The path that a line with these tokens includes, if it is an include line. -/
def includeTarget (tokens : List String) : Except Fault (Option String) :=
  match tokens with
  | [] => .ok none
  | word :: arguments =>
    if word = includeWord then
      match arguments with
      | [] => .error (.missingArgument includeWord)
      | [path] => .ok (some path)
      | _ :: extra :: _ => .error (.extraArgument includeWord extra)
    else .ok none

/-- The path that a line of `file` includes, or what is wrong with the line. -/
def lineTarget (file : String) (bytes : List UInt8) : Except Fault (Option String) :=
  match Utf8.decode bytes with
  | .error flaw => .error (.readFailed file flaw.message)
  | .ok text =>
    match tokenize text with
    | .error e => .error (.ofQuoteError e)
    | .ok tokens => includeTarget tokens

/-- The expansion of lines of `file` from line `number` on, given that of the includes in them. -/
def expandLines (expandInclude : Line → String → Expansion) (file : String) :
    Nat → List (List UInt8) → Expansion
  | _, [] => .empty
  | number, bytes :: rest =>
    let line : Line := ⟨file, number, Utf8.decodeLossy bytes⟩
    (Expansion.ofLine line).andThen fun _ =>
      match lineTarget file bytes with
      | .error fault => .stopped fault (some line)
      | .ok none => expandLines expandInclude file (number + 1) rest
      | .ok (some path) =>
        (expandInclude line path).andThen fun _ =>
          expandLines expandInclude file (number + 1) rest

/-- The expansion of the file at `path`, asked for by the line `site`. A file that opens but cannot
be read is blamed on no line. -/
def expandFile (disk : Disk) (expandInclude : Line → String → Expansion)
    (site : Option Line) (path : String) : Expansion :=
  match (disk.look path).contents with
  | .error obstacle => .stopped (.cannotOpen path obstacle.message) site
  | .ok (.unreadable obstacle) =>
    (Expansion.stopped (.readFailed path obstacle.message) none).opening
  | .ok (.bytes data) => (expandLines expandInclude path 1 (fileLines data)).opening

/-- The expansion of an include of `path` on the line `site`. The files being expanded have the keys
`active`, and `levels` more levels are allowed. -/
def expandInclude (disk : Disk) (limit : Nat) :
    Nat → List String → Line → String → Expansion
  | levels, active, site, path =>
    if disk.key path ∈ active then .stopped (.inclusionCycle path) (some site)
    else
      match levels with
      | 0 => .stopped (.includeTooDeep path limit) (some site)
      | levels + 1 =>
        expandFile disk (expandInclude disk limit levels (disk.key path :: active)) (some site) path

/-- The expansion of a root file, with at most `limit` levels of includes below it. -/
def expand (disk : Disk) (limit : Nat) (root : String) : Expansion :=
  expandFile disk (expandInclude disk limit limit [disk.key root]) none root

end DeviceDescription
