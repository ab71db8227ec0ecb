import DeviceDescription.Command
import DeviceDescription.Command.Report
import DeviceDescription.Settings.File
import DeviceDescription.Document.Record

/-!
# Running the tool

What the tool prints and how it exits, as a function of the files it sees and of its arguments. A
description that is rejected is reported twice on standard error: by the session, unless the
settings discard diagnostics, and in the closing report.
-/

namespace DeviceDescription

structure Outcome where
  code : Nat
  stdout : String
  stderr : String
  deriving DecidableEq, Repr

namespace Command

def versionText : String := "ddtool 0.1.0\n"

/-- What is printed on misuse, in this library's own words. -/
def usageText : String :=
  "usage: ddtool [--config FILE] [--hide-includes] " ++
    "(check FILE | dump [--json] FILE | walk FILE | tokens TEXT)\n"

def rejection (file : String) (d : Diagnostic) : Report :=
  ⟨s!"device description rejected: {file}", [d.text, d.fault.message]⟩

/-- The outcome when a description is rejected after `stdout` has been printed. -/
def rejected (file : String) (stdout : String) (d : Diagnostic) (s : Session) : Outcome :=
  ⟨1, stdout, s.reporter.sink.written ++ (rejection file d).text⟩

/-- The outcome of printing the document in `file`. -/
def withDocument (disk : Disk) (settings : Settings) (file : String)
    (print : Document → Session → String) : Outcome :=
  match (Session.new settings).load disk file with
  | (.error d, s) => rejected file "" d s
  | (.ok (), s) =>
    match s.readDocument with
    | (.error d, s) => rejected file "" d s
    | (.ok doc, s) => ⟨0, print doc s, s.reporter.sink.written⟩

def checkText (doc : Document) (s : Session) : String :=
  s!"ok: {doc.devices.length} devices ({s.lines.length} lines, {s.filesOpened} files)\n"

def deviceText (device : Device) : String :=
  s!"{device.type}\t{device.file}:{device.line}\n" ++
    String.join (device.params.map fun tokens => s!"\t{writtenLine tokens}\n")

def dumpText (doc : Document) : String :=
  String.join (doc.globals.map fun tokens => s!"{writtenLine tokens}\n") ++
    String.join (doc.devices.map deviceText)

def signalText : Signal → String
  | .beginDevice type => s!"begin\t{type}\n"
  | .endDevice type => s!"end\t{type}\n"
  | .content tokens => s!"content\t{writtenLine tokens}\n"
  | .endOfStream => "eos\n"
  | .error _ => ""

def walk (disk : Disk) (settings : Settings) (file : String) : Outcome :=
  match (Session.new settings).load disk file with
  | (.error d, s) => rejected file "" d s
  | (.ok (), s) =>
    let (steps, s) := s.walk
    let stdout := String.join (steps.map fun (signal, _) => signalText signal)
    match steps.getLast? with
    | some (.error d, _) => rejected file stdout d s
    | _ => ⟨0, stdout, s.reporter.sink.written⟩

def tokenLines (n : Nat) : List String → List String
  | [] => []
  | token :: tokens => s!"{n}\t{token}\n" :: tokenLines (n + 1) tokens

def tokens (text : String) : Outcome :=
  match tokenize text with
  | .ok tokens => ⟨0, String.join (tokenLines 0 tokens), ""⟩
  | .error e => ⟨1, "", (Report.mk s!"tokenizing: {text}" [e.message]).text⟩

def perform (disk : Disk) (settings : Settings) : Task → Outcome
  | .check file => withDocument disk settings file checkText
  | .dump file true =>
    withDocument disk settings file fun doc _ => doc.toJson.pretty ++ "\n"
  | .dump file false => withDocument disk settings file fun doc _ => dumpText doc
  | .walk file => walk disk settings file
  | .tokens text => tokens text

/-- The settings of an invocation. -/
def readSettings (disk : Disk) (invocation : Invocation) : Except SettingsError Settings := do
  let settings ← match invocation.settingsFile with
    | some path => Settings.load disk path
    | none => .ok {}
  return if invocation.hideIncludes then { settings with showIncludes := false } else settings

def respond (disk : Disk) : Request → Outcome
  | .version => ⟨0, versionText, ""⟩
  | .misuse => ⟨2, "", usageText⟩
  | .run invocation =>
    match readSettings disk invocation with
    | .ok settings => perform disk settings invocation.task
    | .error e => ⟨1, "", (Report.mk e.message [e.cause]).text⟩

end Command

/-- The outcome of a run of the tool. -/
def runTool (disk : Disk) (arguments : List String) : Outcome :=
  Command.respond disk (.ofArguments arguments)

end DeviceDescription
