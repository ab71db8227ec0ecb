import DeviceDescription.Reporter

/-!
# Settings

How a description is read: whether include lines are handed on as content, how deep includes may
nest below the root file, and where diagnostics go.
-/

namespace DeviceDescription

inductive SinkChoice where
  | stderr
  | discard
  deriving DecidableEq, Repr

/-- The sink chosen, with nothing written to it. What it keeps is meant for standard error. -/
def SinkChoice.sink : SinkChoice → Sink
  | .stderr => .keeping ""
  | .discard => .discarding

structure Settings where
  showIncludes : Bool := true
  depthLimit : UInt64 := 64
  diagnostics : SinkChoice := .stderr
  deriving DecidableEq, Repr

end DeviceDescription
