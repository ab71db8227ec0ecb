import DeviceDescription.Settings
import DeviceDescription.Expansion

/-!
# Reading sessions

A session holds the expanded lines of a description and a place between them: the lines passed,
latest first, and the lines ahead. Each call of `next` passes lines up to the next one that is to be
delivered and says what that line is. Lines without tokens are never delivered, and include lines
only if the settings say so.

Blocks are opened by `begin` and closed by `end` with the same type; they do not nest. The first
fault is reported once and halts the session: every further call answers with the same diagnostic
and changes nothing, until another description is loaded.
-/

namespace DeviceDescription

inductive Signal where
  | beginDevice (type : String)
  | endDevice (type : String)
  | content (tokens : List String)
  | endOfStream
  | error (d : Diagnostic)
  deriving DecidableEq, Repr

/-- Whether nothing new can follow the signal. -/
def Signal.isLast : Signal → Bool
  | .endOfStream | .error _ => true
  | .beginDevice _ | .endDevice _ | .content _ => false

/-- The outcome of the last operation. -/
inductive Status where
  | ok
  | beginDevice
  | endDevice
  | endOfStream
  | error (d : Diagnostic)
  deriving DecidableEq, Repr

/-- Whether a line with these tokens is delivered. -/
def isDelivered (showIncludes : Bool) (tokens : List String) : Bool :=
  match tokens with
  | [] => false
  | word :: _ => showIncludes || word != includeWord

/-- The tokens of a line that is delivered. -/
def Line.deliveredTokens? (showIncludes : Bool) (line : Line) : Option (List String) :=
  match tokenize line.text with
  | .ok tokens => if isDelivered showIncludes tokens then some tokens else none
  | .error _ => none

structure Session where
  settings : Settings
  passed : List Line
  ahead : List Line
  filesOpened : Nat
  blockType : Option String
  status : Status
  reporter : Reporter
  deriving DecidableEq

namespace Session

/-- A session with nothing loaded that writes diagnostics to `sink`. -/
def withSink (settings : Settings) (sink : Sink) : Session :=
  ⟨settings, [], [], 0, none, .ok, .new sink⟩

def new (settings : Settings) : Session := withSink settings settings.diagnostics.sink

def lines (s : Session) : List Line := s.passed.reverse ++ s.ahead

/-- The number of lines passed. -/
def cursor (s : Session) : Nat := s.passed.length

/-- The diagnostic that has halted the session. -/
def diagnostic? (s : Session) : Option Diagnostic :=
  match s.status with
  | .error d => some d
  | _ => none

/-- Reports a fault and halts. -/
def fail (s : Session) (fault : Fault) (site : Option Line) : Diagnostic × Session :=
  let (d, reporter) := (s.reporter.report fault.message).flush fault site
  (d, { s with status := .error d, reporter := reporter })

/-- Takes up the description at `path` and drops whatever the session held before. -/
def load (s : Session) (disk : Disk) (path : String) : Except Diagnostic Unit × Session :=
  let e := expand disk s.settings.depthLimit.toNat path
  let s : Session := { s with
    passed := [], ahead := e.lines, filesOpened := e.opened, blockType := none, status := .ok }
  match e.stop with
  | none => (.ok (), s)
  | some stop =>
    let (d, s) := s.fail stop.fault stop.site
    (.error d, s)

/-- The last line delivered, with its tokens. -/
def lastDelivered? (s : Session) : Option (Line × List String) :=
  s.passed.findSome? fun line =>
    (line.deliveredTokens? s.settings.showIncludes).map fun tokens => (line, tokens)

/-- The tokens of the last line delivered. -/
def current (s : Session) : Except Diagnostic (Option (List String)) :=
  match s.diagnostic? with
  | some d => .error d
  | none => .ok (s.lastDelivered?.map (·.2))

/-- The last line delivered. -/
def lastLine? (s : Session) : Option Line := s.lastDelivered?.map (·.1)

/-- Halts with a fault that the reader of the signals has found in the last line delivered. -/
def halt (s : Session) (fault : Fault) : Diagnostic × Session :=
  match s.diagnostic? with
  | some d => (d, s)
  | none => s.fail fault s.lastLine?

def failSignal (s : Session) (fault : Fault) (site : Line) : Signal × Session :=
  let (d, s) := s.fail fault (some site)
  (.error d, s)

/-- Delivers a line that has just been passed. -/
def deliver (s : Session) (line : Line) (tokens : List String) : Signal × Session :=
  if tokens.head? = some beginWord then
    match s.blockType, tokens[1]? with
    | some opened, found => s.failSignal (.nestedBlock opened (found.getD "")) line
    | none, none => s.failSignal (.missingArgument beginWord) line
    | none, some type =>
      (.beginDevice type, { s with blockType := some type, status := .beginDevice })
  else if tokens.head? = some endWord then
    match tokens[1]? with
    | none => s.failSignal (.missingArgument endWord) line
    | some type =>
      if s.blockType = some type then
        (.endDevice type, { s with blockType := none, status := .endDevice })
      else s.failSignal (.unmatchedEnd s.blockType type) line
  else (.content tokens, { s with status := .ok })

/-- Passes the lines given, which are those ahead, up to the first that is delivered. -/
def advance (s : Session) : List Line → Signal × Session
  | [] => (.endOfStream, { s with ahead := [], status := .endOfStream })
  | line :: rest =>
    let s : Session := { s with passed := line :: s.passed, ahead := rest }
    match tokenize line.text with
    | .error e => s.failSignal (.ofQuoteError e) line
    | .ok tokens =>
      if isDelivered s.settings.showIncludes tokens then s.deliver line tokens
      else s.advance rest

/-- The signal of the next line delivered. -/
def next (s : Session) : Signal × Session :=
  match s.diagnostic? with
  | some d => (.error d, s)
  | none => s.advance s.ahead

theorem failSignal_ahead (s : Session) (fault : Fault) (site : Line) :
    (s.failSignal fault site).2.ahead = s.ahead := rfl

theorem deliver_ahead (s : Session) (line : Line) (tokens : List String) :
    (s.deliver line tokens).2.ahead = s.ahead := by
  unfold deliver
  split
  · split <;> rfl
  · split
    · split
      · rfl
      · split <;> rfl
    · rfl

/-- A delivered line, or one that fails, is behind. -/
theorem advance_ahead (s : Session) (lines : List Line) :
    (s.advance lines).1 = .endOfStream ∨ (s.advance lines).2.ahead.length < lines.length := by
  induction lines generalizing s with
  | nil => exact .inl rfl
  | cons line rest ih =>
    unfold advance
    split
    · exact .inr (by simp [failSignal_ahead])
    · dsimp only
      split
      · exact .inr (by simp [deliver_ahead])
      · rcases ih { s with passed := line :: s.passed, ahead := rest } with h | h
        · exact .inl h
        · exact .inr (Nat.lt_succ_of_lt h)

/-- Every signal but the last leaves fewer lines ahead. -/
theorem next_ahead (s : Session) (h : s.next.1.isLast = false) :
    s.next.2.ahead.length < s.ahead.length := by
  unfold next at h ⊢
  split
  · next hd => simp [hd, Signal.isLast] at h
  · next hd =>
    rw [hd] at h
    rcases s.advance_ahead s.ahead with he | he
    · simp [he, Signal.isLast] at h
    · exact he

/-- All signals up to the end or the first error, each with the line it was found on. -/
def walk (s : Session) : List (Signal × Option Line) × Session :=
  let answer := s.next
  let step := (answer.1, answer.2.lastLine?)
  if _ : answer.1.isLast then ([step], answer.2)
  else
    let (more, last) := answer.2.walk
    (step :: more, last)
termination_by s.ahead.length
decreasing_by exact s.next_ahead (by simp_all [answer])

end Session

end DeviceDescription
