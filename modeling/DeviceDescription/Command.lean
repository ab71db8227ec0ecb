import DeviceDescription.Token.Written

/-!
# Command lines

The tool checks a description, dumps its document, walks through its signals, or cuts one line into
tokens. `--config` and `--hide-includes` may stand on either side of the subcommand, `--json` after
`dump`. On each side an option stands at most once; of two settings files the one after the
subcommand counts. `--` ends the options. Whatever else starts with a dash, except the dash alone,
is an option, and no option is a value.

The help of the tool is left out. `--help` and `-h`, which print it and end the run with code 0,
count as unknown options here, and so as misuse.
-/

namespace DeviceDescription

inductive Task where
  | check (file : String)
  | dump (file : String) (json : Bool)
  | walk (file : String)
  | tokens (text : String)
  deriving DecidableEq, Repr

structure Invocation where
  settingsFile : Option String
  hideIncludes : Bool
  task : Task
  deriving DecidableEq, Repr

/-- What the arguments ask for. -/
inductive Request where
  | run (invocation : Invocation)
  | version
  | misuse
  deriving DecidableEq, Repr

namespace Command

inductive Verb where
  | check
  | dump
  | walk
  | tokens
  deriving DecidableEq, Repr

def Verb.ofName? (name : String) : Option Verb :=
  if name = "check" then some .check
  else if name = "dump" then some .dump
  else if name = "walk" then some .walk
  else if name = "tokens" then some .tokens
  else none

/-- What has been given on one side of the subcommand. -/
structure Given where
  settingsFile : Option String := none
  hideIncludes : Bool := false
  json : Bool := false
  values : List String := []

/-- An argument that has the form of an option. -/
def isOption (argument : String) : Bool :=
  argument.toList.head? == some '-' && argument != "-"

/-- The value in an argument `--config=value`. -/
def attachedSettings? (argument : String) : Option String :=
  if "--config=".toList.isPrefixOf argument.toList then
    some (String.ofList (argument.toList.drop "--config=".toList.length))
  else none

def Given.nameSettings (given : Given) (path : String) : Option Given :=
  if given.settingsFile.isSome then none else some { given with settingsFile := some path }

/-- Reads one of the options that may stand on both sides, and returns what is left of the arguments
after it; `none` if it is none of them or is used wrongly. -/
def Given.option (given : Given) (argument : String) (rest : List String) :
    Option (Given × List String) :=
  if argument = "--hide-includes" then
    if given.hideIncludes then none else some ({ given with hideIncludes := true }, rest)
  else if argument = "--config" then
    match rest with
    | path :: rest => if isOption path then none else (given.nameSettings path).map (·, rest)
    | [] => none
  else (attachedSettings? argument).bind fun path => (given.nameSettings path).map (·, rest)

/-- Reads the arguments after a subcommand, of which there are at most as many as the bound says. -/
def argumentsAfter (verb : Verb) : Nat → Given → List String → Option Given
  | _, given, [] => some given
  | 0, _, _ :: _ => none
  | bound + 1, given, argument :: rest =>
    if argument = "--" then some { given with values := given.values ++ rest }
    else if argument = "--json" ∧ verb = .dump then
      if given.json then none else argumentsAfter verb bound { given with json := true } rest
    else if isOption argument then
      match given.option argument rest with
      | some (given, rest) => argumentsAfter verb bound given rest
      | none => none
    else argumentsAfter verb bound { given with values := given.values ++ [argument] } rest

def Verb.task (verb : Verb) (value : String) (json : Bool) : Task :=
  match verb with
  | .check => .check value
  | .dump => .dump value json
  | .walk => .walk value
  | .tokens => .tokens value

/-- The request of a subcommand: exactly one value must be given. -/
def requestOf (verb : Verb) (before after : Given) : Request :=
  match after.values with
  | [value] =>
    .run ⟨after.settingsFile <|> before.settingsFile, before.hideIncludes || after.hideIncludes,
      verb.task value after.json⟩
  | _ => .misuse

/-- Whether an argument before the subcommand asks for the version: in full, or with its letter
first among short options. -/
def asksVersion (argument : String) : Bool :=
  argument == "--version" || "-V".toList.isPrefixOf argument.toList

/-- Reads the arguments from the first on, of which there are at most as many as the bound says. -/
def argumentsBefore : Nat → Given → List String → Request
  | _, _, [] | 0, _, _ => .misuse
  | bound + 1, given, argument :: rest =>
    if asksVersion argument then .version
    else if isOption argument then
      match given.option argument rest with
      | some (given, rest) => argumentsBefore bound given rest
      | none => .misuse
    else
      match Verb.ofName? argument with
      | none => .misuse
      | some verb =>
        match argumentsAfter verb rest.length {} rest with
        | some after => requestOf verb given after
        | none => .misuse

end Command

/-- What the arguments of the tool ask for. -/
def Request.ofArguments (arguments : List String) : Request :=
  Command.argumentsBefore arguments.length {} arguments

end DeviceDescription
