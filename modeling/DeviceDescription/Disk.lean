/-!
# A view of a file system

A device description is read from files that are named by path texts. All that reading needs to know
of a path is its identity and what opening and reading it gives. A `Disk` answers this for every
path at one moment.

The identity is the canonical path, where links and dots are resolved, as a text. A canonical path
that is not Unicode has U+FFFD in its text for each ill-formed part, so files whose canonical paths
differ only in such parts have one identity, and the text need not lead to any of them.
-/

namespace DeviceDescription

/-- Why a path cannot be opened, read or written. -/
inductive Obstacle where
  | notFound
  | notDirectory
  | isDirectory
  | nameTooLong
  | linkLoop
  | nulInPath
  | notUtf8
  | other (text : String)
  deriving DecidableEq, Repr

def Obstacle.message : Obstacle → String
  | .notFound => "No such file or directory (os error 2)"
  | .notDirectory => "Not a directory (os error 20)"
  | .isDirectory => "Is a directory (os error 21)"
  | .nameTooLong => "File name too long (os error 36)"
  | .linkLoop => "Too many levels of symbolic links (os error 40)"
  | .nulInPath => "file name contained an unexpected NUL byte"
  | .notUtf8 => "stream did not contain valid UTF-8"
  | .other text => text

/-- Whether a path that cannot be opened for this reason does not exist. -/
def Obstacle.isAbsence : Obstacle → Bool
  | .notFound | .notDirectory | .nameTooLong | .linkLoop | .nulInPath => true
  | .isDirectory | .notUtf8 | .other _ => false

/-- What an opened file gives when it is read. It is read whole or not at all: a reading that breaks
off when some of the bytes have been read is not represented. -/
inductive Contents where
  | bytes (data : List UInt8)
  | unreadable (obstacle : Obstacle)

/-- What is seen at a path. The identity is the text of the canonical path, and is absent when the
path leads nowhere. -/
structure Sighting where
  identity : Option String
  contents : Except Obstacle Contents

structure Disk where
  look : String → Sighting

/-- What the file at a path is known by: its identity, or the path as written if it has none. -/
def Disk.key (disk : Disk) (path : String) : String := (disk.look path).identity.getD path

/-- The disk on which no path leads anywhere. -/
def Disk.empty : Disk := ⟨fun _ => ⟨none, .error .notFound⟩⟩

end DeviceDescription
