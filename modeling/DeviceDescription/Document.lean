import DeviceDescription.Session

/-!
# Documents

The content of a description grouped by blocks: the lines outside every block, and for each block
its type, the place of its `begin` line and the lines inside. Grouping goes by the signals of a
walk. A block that was opened before the walk began is not gathered, so its lines count as outside.
-/

namespace DeviceDescription

/-- A device block: its type, the file and number of its `begin` line, and the tokens of each line
inside. -/
structure Device where
  type : String
  file : String
  line : Nat
  params : List (List String)
  deriving DecidableEq, Repr

/-- The arguments of the first line of the block that starts with `key`. -/
def Device.param? (device : Device) (key : String) : Option (List String) :=
  (device.params.find? (fun tokens => tokens.head? == some key)).map List.tail

structure Document where
  globals : List (List String)
  devices : List Device
  deriving DecidableEq, Repr

namespace Document

def empty : Document := ⟨[], []⟩

/-- The devices of one type, in order. -/
def ofType (doc : Document) (type : String) : List Device :=
  doc.devices.filter (·.type == type)

/-- A document in the making: what is finished, last first, and the block being gathered with its
lines last first. -/
structure Draft where
  globals : List (List String)
  devices : List Device
  block : Option Device
  deriving DecidableEq

namespace Draft

def blank : Draft := ⟨[], [], none⟩

def beginDevice (draft : Draft) (type : String) (source : Option Line) : Draft :=
  let (file, line) := (source.map fun line => (line.file, line.number)).getD ("", 0)
  { draft with block := some ⟨type, file, line, []⟩ }

def endDevice (draft : Draft) : Draft :=
  match draft.block with
  | some device =>
    { draft with
      devices := { device with params := device.params.reverse } :: draft.devices, block := none }
  | none => draft

def content (draft : Draft) (tokens : List String) : Draft :=
  match draft.block with
  | some device => { draft with block := some { device with params := tokens :: device.params } }
  | none => { draft with globals := tokens :: draft.globals }

def document (draft : Draft) : Document := ⟨draft.globals.reverse, draft.devices.reverse⟩

end Draft

/-- The draft after the signals given, or the diagnostic among them. -/
def gather (draft : Draft) : List (Signal × Option Line) → Except Diagnostic Draft
  | [] => .ok draft
  | (.beginDevice type, source) :: rest => gather (draft.beginDevice type source) rest
  | (.endDevice _, _) :: rest => gather draft.endDevice rest
  | (.content tokens, _) :: rest => gather (draft.content tokens) rest
  | (.endOfStream, _) :: _ => .ok draft
  | (.error d, _) :: _ => .error d

end Document

/-- The document of the lines still ahead. A block that is being gathered when they end is a fault
of the last line delivered. -/
def Session.readDocument (s : Session) : Except Diagnostic Document × Session :=
  let (steps, s) := s.walk
  match Document.gather .blank steps with
  | .error d => (.error d, s)
  | .ok draft =>
    match draft.block with
    | none => (.ok draft.document, s)
    | some device =>
      let (d, s) := s.halt (.unterminatedBlock device.type)
      (.error d, s)

/-- Why a document could not be made: its description was not loaded, or not read to the end. -/
inductive DocumentError where
  | loading (path : String) (d : Diagnostic)
  | reading (path : String) (d : Diagnostic)
  deriving DecidableEq

def DocumentError.diagnostic : DocumentError → Diagnostic
  | .loading _ d | .reading _ d => d

def DocumentError.context : DocumentError → String
  | .loading path _ => s!"loading device description: {path}"
  | .reading path _ => s!"reading device description: {path}"

/-- The texts of the error from the outermost to the fault itself. -/
def DocumentError.chain (e : DocumentError) : List String :=
  [e.context, e.diagnostic.text, e.diagnostic.fault.message]

/-- The document of the description at `path`. -/
def Document.read (disk : Disk) (settings : Settings) (path : String) :
    Except DocumentError Document :=
  match (Session.new settings).load disk path with
  | (.error d, _) => .error (.loading path d)
  | (.ok (), s) => s.readDocument.1.mapError (.reading path)

end DeviceDescription
