import DeviceDescription.Settings
import DeviceDescription.Disk.Tree
import DeviceDescription.Json.Printer
import DeviceDescription.Json.Reader
import DeviceDescription.Json.Record

/-!
# Settings in files

Settings are kept as a JSON record. Fields that are missing have their defaults, and so has the
whole record when there is no file.
-/

namespace DeviceDescription

def SinkChoice.name : SinkChoice → String
  | .stderr => "stderr"
  | .discard => "discard"

def SinkChoice.ofName? (name : String) : Option SinkChoice :=
  if name = "stderr" then some .stderr
  else if name = "discard" then some .discard
  else none

def SinkChoice.toJson (choice : SinkChoice) : Json := .text choice.name

def SinkChoice.ofJson? (value : Json) : Option SinkChoice := value.choice?.bind ofName?

namespace Settings

def fieldNames : List String := ["surface_include_directives", "max_include_depth", "error_sink"]

def toJson (settings : Settings) : Json :=
  .record [
    ("surface_include_directives", .bool settings.showIncludes),
    ("max_include_depth", .natural settings.depthLimit.toNat),
    ("error_sink", settings.diagnostics.toJson)]

/-- A setting that may be missing. -/
def setting? (read : Json → Option α) (default : α) : Option Json → Option α
  | some value => read value
  | none => some default

def ofJson? (value : Json) : Option Settings :=
  match value.fields? fieldNames with
  | some [surface, depth, sink] => do
    let showIncludes ← setting? Json.bool? ({} : Settings).showIncludes surface
    let depthLimit ←
      setting? (fun v => v.word?.map UInt64.ofNat) ({} : Settings).depthLimit depth
    let diagnostics ← setting? SinkChoice.ofJson? ({} : Settings).diagnostics sink
    some ⟨showIncludes, depthLimit, diagnostics⟩
  | _ => none

end Settings

/-- Why settings could not be read or written. -/
inductive SettingsError where
  | reading (path : String) (obstacle : Obstacle)
  | parsing (path : String)
  | writing (path : String) (obstacle : Obstacle)
  deriving DecidableEq, Repr

def SettingsError.message : SettingsError → String
  | .reading path _ => s!"reading parser config: {path}"
  | .parsing path => s!"parsing parser config: {path}"
  | .writing path _ => s!"writing parser config: {path}"

/-- What lies behind the error. The text for `.parsing` is this library's own and stands in place of
the message of a JSON reader, which says what is wrong with the text and where. -/
def SettingsError.cause : SettingsError → String
  | .reading _ obstacle | .writing _ obstacle => obstacle.message
  | .parsing _ => "the text is not a JSON record of settings"

namespace Settings

/-- The settings in the file at `path`, or the defaults if there is no such file. -/
def load (disk : Disk) (path : String) : Except SettingsError Settings :=
  match (disk.look path).contents with
  | .error obstacle => if obstacle.isAbsence then .ok {} else .error (.reading path obstacle)
  | .ok (.unreadable obstacle) => .error (.reading path obstacle)
  | .ok (.bytes data) =>
    match Utf8.decode data with
    | .error _ => .error (.reading path .notUtf8)
    | .ok text =>
      match (Json.parse? text).bind ofJson? with
      | some settings => .ok settings
      | none => .error (.parsing path)

/-- The files after the settings have been written to `path`. -/
def save (settings : Settings) (tree : FileTree) (path : String) :
    Except SettingsError FileTree :=
  (tree.write path (Utf8.encode settings.toJson.pretty)).mapError (.writing path)

end Settings

end DeviceDescription
