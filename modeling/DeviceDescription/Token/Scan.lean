import DeviceDescription.Text.Blank

/-!
# The tokens of a line

A line is cut at its first `#`; what is left is read one character at a time. Blanks separate
tokens. A token is a word without quotes or a run of characters between two quotes, in which blanks
are ordinary; the closing quote must be followed by a blank or by the end.

Faults carry a column, counted in characters of the whole line from one: of a quote that is never
closed, its own; of a quote in the middle of a word, its own; of a closing quote that does not end
its token, that of the closing quote.
-/

namespace DeviceDescription

inductive QuoteError where
  | unclosed (column : Nat)
  | misplaced (column : Nat)
  deriving DecidableEq, Repr

namespace Scan

/-- Where the next character stands. The characters of an unfinished token are kept last first. -/
inductive Mode where
  | gap
  | word (spelled : List Char)
  | quoted (column : Nat) (spelled : List Char)
  /-- Directly after the closing quote at `column`. -/
  | closed (column : Nat)
  deriving DecidableEq

/-- The number of characters read, the finished tokens last first, and the mode. -/
structure State where
  read : Nat
  tokens : List String
  mode : Mode

def State.initial : State := ⟨0, [], .gap⟩

/-- A finished token: its characters in order. -/
def spell (spelled : List Char) : String := String.ofList spelled.reverse

def step (s : State) (c : Char) : Except QuoteError State :=
  let column := s.read + 1
  match s.mode with
  | .gap =>
    if isBlank c then .ok ⟨column, s.tokens, .gap⟩
    else if c = '"' then .ok ⟨column, s.tokens, .quoted column []⟩
    else .ok ⟨column, s.tokens, .word [c]⟩
  | .word spelled =>
    if isBlank c then .ok ⟨column, spell spelled :: s.tokens, .gap⟩
    else if c = '"' then .error (.misplaced column)
    else .ok ⟨column, s.tokens, .word (c :: spelled)⟩
  | .quoted opened spelled =>
    if c = '"' then .ok ⟨column, spell spelled :: s.tokens, .closed column⟩
    else .ok ⟨column, s.tokens, .quoted opened (c :: spelled)⟩
  | .closed quote =>
    if isBlank c then .ok ⟨column, s.tokens, .gap⟩ else .error (.misplaced quote)

/-- The tokens once the line has ended. -/
def State.finish (s : State) : Except QuoteError (List String) :=
  match s.mode with
  | .gap | .closed _ => .ok s.tokens.reverse
  | .word spelled => .ok (spell spelled :: s.tokens).reverse
  | .quoted opened _ => .error (.unclosed opened)

/-- The state after characters, one step each. -/
def advance (s : State) : List Char → Except QuoteError State
  | [] => .ok s
  | c :: rest => (step s c).bind fun s => advance s rest

theorem advance_append (s : State) (a b : List Char) :
    advance s (a ++ b) = (advance s a).bind fun s => advance s b := by
  induction a generalizing s with
  | nil => rfl
  | cons c a ih =>
    simp only [List.cons_append, advance]
    cases step s c with
    | error e => rfl
    | ok s => exact ih s

end Scan

/-- The part of a line before its first `#`. -/
def uncommented (line : List Char) : List Char := line.takeWhile (· != '#')

def tokenize (line : String) : Except QuoteError (List String) :=
  (Scan.advance .initial (uncommented line.toList)).bind Scan.State.finish

end DeviceDescription
