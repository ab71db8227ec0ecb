import DeviceDescription.Proofs.Redirection
import DeviceDescription.Proofs.Reports
import Mathlib.Data.List.Forall2

/-!
# Loading forgets

Of all that a session has been through, a load keeps no more than the settings and what has been
written to the sink, for between two operations nothing is pending. So from its next load on, a
session does what a new one with the same settings does, and writes the same to its sink behind
what is there.
-/

namespace DeviceDescription

/-- The sink before anything was written to it. -/
def Sink.emptied : Sink → Sink
  | .keeping _ => .keeping ""
  | .discarding => .discarding
  | .refusing => .refusing

theorem Sink.emptied_precededBy (sink : Sink) : sink.emptied.precededBy sink.written = sink := by
  cases sink with
  | keeping written => exact congrArg Sink.keeping String.append_empty
  | discarding | refusing => rfl

namespace Session

/-- A new session with the same settings, whose sink is of the same kind. -/
def anew (s : Session) : Session := withSink s.settings s.reporter.sink.emptied

/-- The second step answers like the first and leaves the same session, whose sink holds what the
first one's does, behind the text. -/
structure StepBehind (text : String) (step step' : Answer × Session) : Prop
    extends StepAgrees step step' where
  settings : step'.2.settings = step.2.settings
  sink : step'.2.reporter.sink = step.2.reporter.sink.precededBy text

theorem Reachable.clean {s : Session} (h : s.Reachable) : s.Clean := by
  induction h with
  | new settings sink => exact ⟨rfl, fun d hd => by cases hd⟩
  | load disk path _ ih => exact ih.load disk path
  | call call _ ih => exact ih.reply call

theorem load_eq_of_pending {s : Session} (h : s.reporter.pending = "") (disk : Disk)
    (path : String) :
    s.load disk path = (withSink s.settings s.reporter.sink).load disk path := by
  obtain ⟨settings, passed, ahead, opened, block, status, sink, pending⟩ := s
  obtain rfl : pending = "" := h
  rfl

theorem redirected_anew (s : Session) :
    s.anew.redirected (.behind s.reporter.sink.written) = withSink s.settings s.reporter.sink := by
  have hsink := s.reporter.sink.emptied_precededBy
  exact congrArg (withSink s.settings) hsink

theorem Reachable.performAll_load {s : Session} (h : s.Reachable) (disk : Disk) (path : String)
    (operations : List Operation) :
    s.performAll (.load disk path :: operations) =
      (s.anew.performAll (.load disk path :: operations)).map
        (Prod.map id (redirected (.behind s.reporter.sink.written))) := by
  have hload := load_eq_of_pending h.clean.pending disk path
  rw [← performAll_redirected, redirected_anew]
  rw [performAll, performAll, perform, perform, hload]

end Session

/-- Whatever a session has been through, if it loads a description and performs operations after
that, it answers each time as a new session with the same settings would, and is left the same each
time; and what it writes to its sink is the same too, behind what it had written before. -/
theorem load_forgets {s : Session} (h : s.Reachable) (disk : Disk) (path : String)
    (operations : List Operation) :
    List.Forall₂ (Session.StepBehind s.reporter.sink.written)
      (s.anew.performAll (.load disk path :: operations))
      (s.performAll (.load disk path :: operations)) := by
  rw [h.performAll_load, List.forall₂_map_right_iff, List.forall₂_same]
  intro step _
  exact ⟨⟨rfl, step.2.agrees_redirected _⟩, rfl, rfl⟩

/-- The session that a nested block has halted takes up another description, which is as if it were
new but for what its sink holds already. -/
theorem load_forgets_pastNested :
    pastNested.blockType = some "motor" ∧
      List.Forall₂
        (Session.StepBehind
          "Error! arm.dd:2: begin arm\n    cannot begin 'arm' while 'motor' is still open\n")
        ((Session.new {}).performAll [.load motors "broken.dd", .call .next, .call .readDocument])
        (pastNested.performAll [.load motors "broken.dd", .call .next, .call .readDocument]) := by
  have hforgets := load_forgets pastNested_reachable motors "broken.dd"
    [.call .next, .call .readDocument]
  have hwritten : pastNested.reporter.sink.written =
      "Error! arm.dd:2: begin arm\n    cannot begin 'arm' while 'motor' is still open\n" := by
    decide +kernel
  have hanew : pastNested.anew = Session.new {} := by decide +kernel
  rw [hwritten, hanew] at hforgets
  exact ⟨by decide +kernel, hforgets⟩

end DeviceDescription
