import DeviceDescription.Command.Run

/-!
# The program

The tool run on the file system of the machine. Paths are looked at when a run first asks for them,
and a run that asked for a new path is started over with what was seen there.
-/

namespace DeviceDescription

/-- What has been seen so far, by path. -/
abbrev Snapshot := List (String × Sighting)

/-- The disk as far as it has been seen. -/
def Snapshot.disk (seen : Snapshot) : Disk :=
  ⟨fun path => (seen.lookup path).getD ⟨none, .error .notFound⟩⟩

/-- The path that a fault names and that nothing is known about yet. -/
def Snapshot.missing? (seen : Snapshot) : Fault → Option String
  | .cannotOpen path _ | .includeTooDeep path _ =>
    if (seen.lookup path).isSome then none else some path
  | _ => none

/-- The obstacle behind an error of the system, by its number. -/
def obstacleOf : IO.Error → Obstacle
  | .noFileOrDirectory .. => .notFound
  | .inappropriateType _ 20 _ => .notDirectory
  | .inappropriateType _ 21 _ => .isDirectory
  | .invalidArgument _ 36 _ => .nameTooLong
  | .invalidArgument _ 40 _ => .linkLoop
  | .permissionDenied _ code details => .other s!"{details} (os error {code})"
  | e => .other (toString e)

def readContents (file : IO.FS.Handle) : IO Contents := do
  try
    return .bytes (← file.readBinToEnd).toList
  catch e => return .unreadable (obstacleOf e)

def identity? (path : String) : IO (Option String) := do
  try
    return some (toString (← IO.FS.realPath path))
  catch _ => return none

def observe (path : String) : IO Sighting := do
  if '\x00' ∈ path.toList then return ⟨none, .error .nulInPath⟩
  try
    let file ← IO.FS.Handle.mk path .read
    return ⟨← identity? path, .ok (← readContents file)⟩
  catch e => return ⟨← identity? path, .error (obstacleOf e)⟩

/-- Everything that an expansion of `root` asks for. -/
partial def observeDescription (seen : Snapshot) (limit : Nat) (root : String) : IO Snapshot := do
  match (expand seen.disk limit root).stop.bind (fun stop => seen.missing? stop.fault) with
  | none => return seen
  | some path => observeDescription ((path, ← observe path) :: seen) limit root

def Task.file? : Task → Option String
  | .check file | .dump file _ | .walk file => some file
  | .tokens _ => none

def observeInvocation (invocation : Invocation) : IO Snapshot := do
  let seen : Snapshot ← match invocation.settingsFile with
    | some path => pure [(path, ← observe path)]
    | none => pure []
  match Command.readSettings seen.disk invocation, invocation.task.file? with
  | .ok settings, some file => observeDescription seen settings.depthLimit.toNat file
  | _, _ => return seen

def runOn (arguments : List String) : IO Outcome := do
  let request := Request.ofArguments arguments
  match request with
  | .run invocation => return Command.respond (← observeInvocation invocation).disk request
  | .version | .misuse => return Command.respond .empty request

end DeviceDescription

def main (arguments : List String) : IO UInt32 := do
  let outcome ← DeviceDescription.runOn arguments
  (← IO.getStdout).putStr outcome.stdout
  (← IO.getStderr).putStr outcome.stderr
  return outcome.code.toUInt32
