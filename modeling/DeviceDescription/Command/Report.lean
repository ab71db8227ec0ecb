/-!
# Error reports

A report names an error and the chain of its causes. A single cause is indented; several are
numbered from zero, and the further lines of a cause stand below its first.
-/

namespace DeviceDescription

structure Report where
  outer : String
  causes : List String
  deriving DecidableEq, Repr

namespace Report

/-- A text whose first line follows `lead` and whose other lines follow `indent`. -/
def indented (lead indent : String) (text : String) : String :=
  lead ++ String.ofList (text.toList.flatMap fun c => if c = '\n' then c :: indent.toList else [c])

/-- A number in five columns. -/
def number (n : Nat) : String :=
  let digits := Nat.repr n
  String.ofList (List.replicate (5 - digits.length) ' ') ++ digits ++ ": "

def numbered (n : Nat) : List String → List String
  | [] => []
  | cause :: causes => indented (number n) "       " cause :: numbered (n + 1) causes

def causeTexts : List String → List String
  | [cause] => [indented "    " "    " cause]
  | causes => numbered 0 causes

/-- The report as it is printed, with a newline at its end. -/
def text (r : Report) : String :=
  match r.causes with
  | [] => s!"Error: {r.outer}\n"
  | causes =>
    s!"Error: {r.outer}\n\nCaused by:\n" ++
      String.join ((causeTexts causes).map (· ++ "\n"))

end Report

end DeviceDescription
