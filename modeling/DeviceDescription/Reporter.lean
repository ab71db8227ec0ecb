import DeviceDescription.Diagnostic
import DeviceDescription.Text.Quoted

/-!
# Reporting

A reporter gathers fragments of a message. A flush makes a diagnostic of the whole message, writes
its text and a newline to the sink, and starts over. A sink may refuse what is written to it; the
diagnostic is the same and the message is used up all the same.
-/

namespace DeviceDescription

/-- Where diagnostics are written: a sink that keeps them, one that accepts and forgets them, or one
that refuses every write. -/
inductive Sink where
  | keeping (written : String)
  | discarding
  | refusing
  deriving DecidableEq, Repr

/-- The sink after a write, unless it refuses. -/
def Sink.write (text : String) : Sink → Option Sink
  | .keeping written => some (.keeping (written ++ text))
  | .discarding => some .discarding
  | .refusing => none

/-- All text that the sink still holds. -/
def Sink.written : Sink → String
  | .keeping written => written
  | .discarding | .refusing => ""

structure Reporter where
  sink : Sink
  pending : String
  deriving DecidableEq

namespace Reporter

def new (sink : Sink) : Reporter := ⟨sink, ""⟩

def report (r : Reporter) (fragment : String) : Reporter :=
  { r with pending := r.pending ++ fragment }

/-- The diagnostic with the pending message, and the reporter with nothing pending. -/
def flush (r : Reporter) (fault : Fault) (site : Option Line) : Diagnostic × Reporter :=
  let d : Diagnostic := ⟨fault, site, r.pending⟩
  (d, ⟨(r.sink.write (d.text ++ "\n")).getD r.sink, ""⟩)

/-- The reporter as debugging output shows it. -/
def description (r : Reporter) : String :=
  "ErrorReporter \x7b pending: " ++ Quoted.encode r.pending ++ ", .. \x7d"

end Reporter

end DeviceDescription
