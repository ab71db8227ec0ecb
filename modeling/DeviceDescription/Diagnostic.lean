import DeviceDescription.Fault
import DeviceDescription.Line

/-!
# Diagnostics

A diagnostic is a fault together with the line it was found on, if any, and the message that was
reported for it. Its text names the line as `file:number: text` and puts the message below.
-/

namespace DeviceDescription

structure Diagnostic where
  fault : Fault
  site : Option Line
  message : String
  deriving DecidableEq, Repr

def Diagnostic.text (d : Diagnostic) : String :=
  match d.site with
  | some line => s!"Error! {line.file}:{line.number}: {line.text}\n    {d.message}"
  | none => s!"Error! {d.message}"

end DeviceDescription
