import DeviceDescription.Proofs.History
import DeviceDescription.Proofs.Load

/-!
# Where diagnostics go

A session writes to its sink and never reads from it. So if diagnostics are sent elsewhere, each
operation answers as before and leaves the session that it would have left, with its diagnostics
sent elsewhere too. What elsewhere may be is said by a `Redirection`: any change of the sink that
it does not matter to make before or after something is written.
-/

namespace DeviceDescription

/-- The sink once a text has been written to it, whether or not it has refused the text. -/
def Sink.receive (sink : Sink) (text : String) : Sink := (sink.write text).getD sink

/-- Another place for diagnostics in the stead of each one. -/
structure Redirection where
  choice : SinkChoice → SinkChoice
  sink : Sink → Sink
  receive : ∀ old text, (sink old).receive text = sink (old.receive text)

namespace Redirection

/-- All diagnostics are discarded. -/
def silence : Redirection where
  choice _ := .discard
  sink _ := .discarding
  receive _ _ := rfl

end Redirection

/-- The sink with a text before all that it holds, if it holds anything. -/
def Sink.precededBy (text : String) : Sink → Sink
  | .keeping written => .keeping (text ++ written)
  | .discarding => .discarding
  | .refusing => .refusing

/-- Diagnostics go where they went, behind a text that is there already. -/
def Redirection.behind (text : String) : Redirection where
  choice := id
  sink := Sink.precededBy text
  receive old more := by
    cases old with
    | keeping written => exact congrArg Sink.keeping (String.append_assoc ..)
    | discarding | refusing => rfl

/-- A load or another call. -/
inductive Operation where
  | load (disk : Disk) (path : String)
  | call (call : Call)

inductive Answer where
  | load (answer : Except Diagnostic Unit)
  | call (reply : Reply)
  deriving DecidableEq

namespace Session

def perform (s : Session) : Operation → Answer × Session
  | .load disk path => (.load (s.load disk path).1, (s.load disk path).2)
  | .call call => (.call (s.reply call).1, (s.reply call).2)

/-- The answers to operations performed one after the other, each with the session after it. -/
def performAll (s : Session) : List Operation → List (Answer × Session)
  | [] => []
  | operation :: operations =>
    s.perform operation :: (s.perform operation).2.performAll operations

def redirected (r : Redirection) (s : Session) : Session :=
  { s with
    settings := { s.settings with diagnostics := r.choice s.settings.diagnostics }
    reporter := { s.reporter with sink := r.sink s.reporter.sink } }

/-- The sessions are the same but for where their diagnostics go. -/
structure Agrees (s s' : Session) : Prop where
  showIncludes : s'.settings.showIncludes = s.settings.showIncludes
  depthLimit : s'.settings.depthLimit = s.settings.depthLimit
  lines : s'.lines = s.lines
  cursor : s'.cursor = s.cursor
  filesOpened : s'.filesOpened = s.filesOpened
  blockType : s'.blockType = s.blockType
  status : s'.status = s.status
  pending : s'.reporter.pending = s.reporter.pending

/-- The second step answers like the first, and the sessions that they leave agree. -/
structure StepAgrees (step step' : Answer × Session) : Prop where
  answer : step'.1 = step.1
  agrees : step.2.Agrees step'.2

theorem agrees_of_redirected_eq {r : Redirection} {s s' : Session}
    (h : s.redirected r = s'.redirected r) : s.Agrees s' where
  showIncludes := (congrArg (·.settings.showIncludes) h).symm
  depthLimit := (congrArg (·.settings.depthLimit) h).symm
  lines := (congrArg Session.lines h).symm
  cursor := (congrArg Session.cursor h).symm
  filesOpened := (congrArg Session.filesOpened h).symm
  blockType := (congrArg Session.blockType h).symm
  status := (congrArg Session.status h).symm
  pending := (congrArg (·.reporter.pending) h).symm

theorem agrees_redirected (r : Redirection) (s : Session) : s.Agrees (s.redirected r) :=
  ⟨rfl, rfl, rfl, rfl, rfl, rfl, rfl, rfl⟩

section Redirected

variable (r : Redirection) (s : Session)

@[simp] theorem redirected_ahead : (s.redirected r).ahead = s.ahead := rfl

@[simp] theorem redirected_blockType : (s.redirected r).blockType = s.blockType := rfl

@[simp] theorem redirected_diagnostic? : (s.redirected r).diagnostic? = s.diagnostic? := rfl

@[simp] theorem redirected_lastLine? : (s.redirected r).lastLine? = s.lastLine? := rfl

theorem fail_redirected (fault : Fault) (site : Option Line) :
    (s.redirected r).fail fault site =
      ((s.fail fault site).1, (s.fail fault site).2.redirected r) := by
  have hreceive := r.receive s.reporter.sink ((s.fail fault site).1.text ++ "\n")
  have hsink : ((s.redirected r).fail fault site).2.reporter =
      ((s.fail fault site).2.redirected r).reporter :=
    congrArg (fun sink => (⟨sink, ""⟩ : Reporter)) hreceive
  exact Prod.ext rfl (by rw [Session.mk.injEq]; exact ⟨rfl, rfl, rfl, rfl, rfl, rfl, hsink⟩)

theorem failSignal_redirected (fault : Fault) (site : Line) :
    (s.redirected r).failSignal fault site =
      ((s.failSignal fault site).1, (s.failSignal fault site).2.redirected r) := by
  unfold failSignal
  rw [fail_redirected]

theorem halt_redirected (fault : Fault) :
    (s.redirected r).halt fault = ((s.halt fault).1, (s.halt fault).2.redirected r) := by
  unfold halt
  rw [redirected_diagnostic?, redirected_lastLine?]
  cases s.diagnostic? with
  | some d => rfl
  | none => exact s.fail_redirected r fault s.lastLine?

theorem deliver_redirected (line : Line) (tokens : List String) :
    (s.redirected r).deliver line tokens =
      ((s.deliver line tokens).1, (s.deliver line tokens).2.redirected r) := by
  unfold deliver
  rw [redirected_blockType]
  split
  · split
    · exact s.failSignal_redirected r _ line
    · exact s.failSignal_redirected r _ line
    · rfl
  · split
    · split
      · exact s.failSignal_redirected r _ line
      · split
        · rfl
        · exact s.failSignal_redirected r _ line
    · rfl

theorem advance_redirected (lines : List Line) :
    (s.redirected r).advance lines = ((s.advance lines).1, (s.advance lines).2.redirected r) := by
  induction lines generalizing s with
  | nil => rfl
  | cons line rest ih =>
    have hpass : (s.redirected r).pass line rest = (s.pass line rest).redirected r := rfl
    cases ht : tokenize line.text with
    | error e =>
      rw [advance, advance, ht]
      exact (s.pass line rest).failSignal_redirected r _ line
    | ok tokens =>
      rw [advance_cons _ ht, advance_cons _ ht, hpass]
      change (if isDelivered s.settings.showIncludes tokens then _ else _) = _
      split
      · exact (s.pass line rest).deliver_redirected r line tokens
      · exact ih (s.pass line rest)

theorem next_redirected : (s.redirected r).next = (s.next.1, s.next.2.redirected r) := by
  unfold next
  rw [redirected_diagnostic?, redirected_ahead]
  cases s.diagnostic? with
  | some d => rfl
  | none => exact s.advance_redirected r s.ahead

theorem walk_redirected : (s.redirected r).walk = (s.walk.1, s.walk.2.redirected r) := by
  induction s using walk_induction with
  | last s hlast =>
    have hsame : (s.redirected r).next.1.isLast = true := by rw [next_redirected]; exact hlast
    rw [walk_of_isLast hlast, walk_of_isLast hsame, next_redirected]
    rfl
  | more s hlast ih =>
    have hsame : (s.redirected r).next.1.isLast = false := by rw [next_redirected]; exact hlast
    rw [walk_of_not_isLast hlast, walk_of_not_isLast hsame, next_redirected]
    dsimp only
    rw [ih]
    rfl

theorem readDocument_redirected :
    (s.redirected r).readDocument = (s.readDocument.1, s.readDocument.2.redirected r) := by
  unfold readDocument
  rw [walk_redirected]
  dsimp only
  cases Document.gather .blank s.walk.1 with
  | error d => rfl
  | ok draft =>
    dsimp only
    cases draft.block with
    | none => rfl
    | some device =>
      dsimp only
      rw [halt_redirected]

theorem load_redirected (disk : Disk) (path : String) :
    (s.redirected r).load disk path =
      ((s.load disk path).1, (s.load disk path).2.redirected r) := by
  cases h : (expand disk s.settings.depthLimit.toNat path).stop with
  | none =>
    rw [s.load_of_complete disk path h, (s.redirected r).load_of_complete disk path h]
    rfl
  | some stop =>
    rw [s.load_of_stopped disk path h, (s.redirected r).load_of_stopped disk path h]
    have hholding (e : Expansion) : (s.redirected r).holding e = (s.holding e).redirected r := rfl
    rw [hholding, fail_redirected]
    rfl

theorem reply_redirected (call : Call) :
    (s.redirected r).reply call = ((s.reply call).1, (s.reply call).2.redirected r) := by
  cases call with
  | next => rw [reply, next_redirected]; rfl
  | halt fault => rw [reply, halt_redirected]; rfl
  | readDocument => rw [reply, readDocument_redirected]; rfl
  | current | lastLine | status | lines | blockType | filesOpened => rfl

theorem perform_redirected (operation : Operation) :
    (s.redirected r).perform operation =
      ((s.perform operation).1, (s.perform operation).2.redirected r) := by
  cases operation with
  | load disk path => rw [perform, load_redirected]; rfl
  | call call => rw [perform, reply_redirected]; rfl

/-- Operations answer the same wherever the diagnostics go. -/
theorem performAll_redirected (operations : List Operation) :
    (s.redirected r).performAll operations =
      (s.performAll operations).map (Prod.map id (redirected r)) := by
  induction operations generalizing s with
  | nil => rfl
  | cons operation operations ih =>
    rw [performAll, performAll, perform_redirected, List.map_cons]
    dsimp only
    rw [ih]
    rfl

end Redirected

end Session

end DeviceDescription
