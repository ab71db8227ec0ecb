import DeviceDescription.Disk
import DeviceDescription.Text.Utf8

/-!
# File trees

A tree of files, directories and symbolic links, and how a path leads through it. Entries are listed
with the place where they stand; a place is the sequence of names from the root, innermost first.
The root is a directory, and paths that do not start at it start at the working directory.

A path is followed name by name. A link is replaced by its target, at most forty times on one way.
Where a path only looks, a slash at its end asks that it leads to a directory. Where it may create a
file, the last name may be missing, and a slash after it is refused as the name of a directory.
-/

namespace DeviceDescription

/-- The names from the root to a place, innermost first. -/
abbrev Place := List String

inductive Entry where
  | file (data : List UInt8)
  | directory
  | link (target : String)
  deriving DecidableEq

structure FileTree where
  entries : List (Place × Entry)
  workingDirectory : Place

/-- Where a path leads. -/
inductive Arrival where
  | file (place : Place) (data : List UInt8)
  | directory (place : Place)
  /-- Nothing, in a directory that exists. -/
  | vacant (place : Place)
  deriving DecidableEq

/-- The names in a path, with an empty one before, between or after slashes. -/
def pathNames (path : String) : List String :=
  (path.toList.splitOnP (· == '/')).map String.ofList

namespace FileTree

/-- Directories at a place and at every place above it but the root. -/
def directoriesTo : Place → List (Place × Entry)
  | [] => []
  | name :: above => (name :: above, .directory) :: directoriesTo above

/-- A tree that holds only the working directory and the directories above it. -/
def new (workingDirectory : Place) : FileTree :=
  ⟨directoriesTo workingDirectory, workingDirectory⟩

def find? (tree : FileTree) (place : Place) : Option Entry :=
  if place.isEmpty then some .directory else tree.entries.lookup place

/-- Follows names from the directory `here`, over at most `links` links. -/
def follow (tree : FileTree) (creating : Bool) (links : Nat) (here : Place) (names : List String) :
    Except Obstacle Arrival :=
  match names with
  | [] => .ok (.directory here)
  | name :: rest =>
    if name = "" ∨ name = "." then tree.follow creating links here rest
    else if name = ".." then tree.follow creating links here.tail rest
    else if creating ∧ rest ≠ [] ∧ ∀ name ∈ rest, name = "" then .error .isDirectory
    else if 255 < name.utf8ByteSize then .error .nameTooLong
    else
      match tree.find? (name :: here) with
      | none => if rest = [] then .ok (.vacant (name :: here)) else .error .notFound
      | some .directory => tree.follow creating links (name :: here) rest
      | some (.file data) =>
        if rest = [] then .ok (.file (name :: here) data) else .error .notDirectory
      | some (.link target) =>
        match links with
        | 0 => .error .linkLoop
        | links + 1 =>
          tree.follow creating links (if target.toList.head? = some '/' then [] else here)
            (pathNames target ++ rest)
termination_by (links, names.length)

/-- Where a path of any length leads, or why it leads nowhere. -/
def trace (tree : FileTree) (creating : Bool) (path : String) : Except Obstacle Arrival :=
  if '\x00' ∈ path.toList then .error .nulInPath
  else if path = "" then .error .notFound
  else
    tree.follow creating 40 (if path.toList.head? = some '/' then [] else tree.workingDirectory)
      (pathNames path)

/-- Where a path leads that is to be opened, for which it must be shorter than 4096 bytes. -/
def resolve (tree : FileTree) (creating : Bool) (path : String) : Except Obstacle Arrival :=
  if 4096 ≤ path.utf8ByteSize ∧ '\x00' ∉ path.toList then .error .nameTooLong
  else tree.trace creating path

def placeText (place : Place) : String := "/" ++ String.intercalate "/" place.reverse

/-- The canonical path of an existing file or directory. -/
def canonical? (tree : FileTree) (path : String) : Option String :=
  match tree.trace false path with
  | .ok (.file place _) | .ok (.directory place) => some (placeText place)
  | .ok (.vacant _) | .error _ => none

/-- What opening a path gives. A directory can be opened but not read. -/
def openPath (tree : FileTree) (path : String) : Except Obstacle Contents :=
  match tree.resolve false path with
  | .ok (.file _ data) => .ok (.bytes data)
  | .ok (.directory _) => .ok (.unreadable .isDirectory)
  | .ok (.vacant _) => .error .notFound
  | .error obstacle => .error obstacle

/-- The tree as paths show it. -/
def disk (tree : FileTree) : Disk := ⟨fun path => ⟨tree.canonical? path, tree.openPath path⟩⟩

/-- The tree with an entry at a place, in the stead of what was there. -/
def insert (tree : FileTree) (place : Place) (entry : Entry) : FileTree :=
  { tree with entries := (place, entry) :: tree.entries.filter (·.1 != place) }

/-- The tree after a file has been written, over an old one or as a new one. -/
def write (tree : FileTree) (path : String) (data : List UInt8) : Except Obstacle FileTree :=
  match tree.resolve true path with
  | .ok (.file place _) | .ok (.vacant place) => .ok (tree.insert place (.file data))
  | .ok (.directory _) => .error .isDirectory
  | .error obstacle => .error obstacle

/-- The tree with a directory where the names lead, if there is nothing yet. -/
def provideDirectory (tree : FileTree) (names : List String) : FileTree :=
  match tree.follow false 40 tree.workingDirectory names with
  | .ok (.vacant place) => tree.insert place .directory
  | _ => tree

/-- The tree with an entry at a path below the working directory and the directories on the way to
it. A file is written through a link that is already there. -/
def add (tree : FileTree) (path : String) (entry : Entry) : FileTree :=
  let names := pathNames path
  let tree :=
    (List.range names.length).foldl (fun tree n => tree.provideDirectory (names.take n)) tree
  match entry with
  | .directory => tree.provideDirectory names
  | .file data => (tree.write path data).toOption.getD tree
  | .link _ =>
    match tree.follow false 40 tree.workingDirectory names.dropLast, names.getLast? with
    | .ok (.directory place), some name => tree.insert (name :: place) entry
    | _, _ => tree

/-- The tree without the entry at a path below the working directory, and without all that stands
below it. A link is removed itself. -/
def remove (tree : FileTree) (path : String) : FileTree :=
  let names := pathNames path
  match tree.follow false 40 tree.workingDirectory names.dropLast, names.getLast? with
  | .ok (.directory place), some name =>
    { tree with entries := tree.entries.filter fun e => !(name :: place).isSuffixOf e.1 }
  | _, _ => tree

end FileTree

end DeviceDescription
