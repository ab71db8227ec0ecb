import DeviceDescription.Document
import DeviceDescription.Json.Printer
import DeviceDescription.Json.Reader
import DeviceDescription.Json.Record

/-!
# Documents as JSON records

The records of source lines, devices and documents. All their fields are required.
-/

namespace DeviceDescription

def Line.toJson (line : Line) : Json :=
  .record [
    ("origin_file", .text line.file),
    ("line_number", .natural line.number),
    ("raw_text", .text line.text)]

def Line.ofJson? (value : Json) : Option Line :=
  match value.fields? ["origin_file", "line_number", "raw_text"] with
  | some [some file, some number, some text] => do
    some ⟨← file.text?, ← number.word?, ← text.text?⟩
  | _ => none

/-- Lists of tokens as an array of arrays of strings. -/
def jsonOfTokenLists (lists : List (List String)) : Json :=
  .array (lists.map fun tokens => .array (tokens.map Json.text))

def tokenLists? : Json → Option (List (List String)) := Json.list? (Json.list? Json.text?)

def Device.toJson (device : Device) : Json :=
  .record [
    ("device_type", .text device.type),
    ("file", .text device.file),
    ("line", .natural device.line),
    ("params", jsonOfTokenLists device.params)]

def Device.ofJson? (value : Json) : Option Device :=
  match value.fields? ["device_type", "file", "line", "params"] with
  | some [some type, some file, some line, some params] => do
    some ⟨← type.text?, ← file.text?, ← line.word?, ← tokenLists? params⟩
  | _ => none

def Document.toJson (doc : Document) : Json :=
  .record [
    ("globals", jsonOfTokenLists doc.globals),
    ("devices", .array (doc.devices.map Device.toJson))]

def Document.ofJson? (value : Json) : Option Document :=
  match value.fields? ["globals", "devices"] with
  | some [some globals, some devices] => do
    some ⟨← tokenLists? globals, ← devices.list? Device.ofJson?⟩
  | _ => none

end DeviceDescription
