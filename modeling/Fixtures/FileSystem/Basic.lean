/-
A file system as a value: the files and directories by their location, and the walk that leads from
a path as it is written to a location.

Its scope: there are files, directories and one kind of device, which takes no byte. There are no links,
so each of them has one location and the way up leads back. Everything can be read and written by
everyone, and nothing changes by itself. Making directories, opening and renaming fail for what there is
at their paths and for nothing else; writing to an open file and syncing it can fail at any time, as the
hitches of the file system say.
-/
import Fixtures.FileSystem.Path

namespace Fixtures

/-- The reasons for which an action on files fails. -/
inductive FileError where
  | notFound
  | alreadyExists
  | notADirectory
  | isADirectory
  /-- The path holds a character that no path can hold, or has no name to write to, or a device is asked for what only
  files can do. -/
  | invalidInput
  /-- The content of a file is not text. -/
  | invalidData
  /-- A name or the whole path is too long. -/
  | invalidFilename
  | busy
  | storageFull
  | writeZero
  | interrupted
  | brokenPipe
  /-- The medium of a file does not work. -/
  | medium
  deriving DecidableEq, Repr, Inhabited

/-- The cause of a failure of a file, in words. -/
def FileError.message : FileError → String
  | notFound => "No such file or directory (os error 2)"
  | alreadyExists => "File exists (os error 17)"
  | notADirectory => "Not a directory (os error 20)"
  | isADirectory => "Is a directory (os error 21)"
  | invalidInput => "invalid input parameter"
  | invalidData => "stream did not contain valid UTF-8"
  | invalidFilename => "File name too long (os error 36)"
  | busy => "Device or resource busy (os error 16)"
  | storageFull => "No space left on device (os error 28)"
  | writeZero => "failed to write whole buffer"
  | interrupted => "operation interrupted"
  | brokenPipe => "broken pipe"
  | medium => "Input/output error (os error 5)"

/-- A place in the tree of directories: the names from the root down. -/
abbrev Location := List FileName

/-- The location with names that are texts. -/
def Location.ofTexts (names : List String) : Location := names.map FileName.ofText

/-- What is at a location. -/
inductive FileNode where
  | file (content : ByteArray)
  | directory
  /-- A device that takes no byte. -/
  | full
  deriving Inhabited

namespace FileNode

def isDirectory : FileNode → Bool
  | directory => true
  | _ => false

/-- Whether two nodes are of one type and, as files, have one content. -/
def same : FileNode → FileNode → Bool
  | file a, file b => a.data == b.data
  | directory, directory => true
  | full, full => true
  | _, _ => false

end FileNode

/-- What comes of a write to an open file or of its sync. -/
inductive Hitch where
  /-- A write takes at most so many bytes. -/
  | short (n : Nat)
  | failure (e : FileError)
  deriving DecidableEq, Repr

/-- The files and directories by location, and the working directory. The root is always there. -/
structure FileSystem where
  entries : List (Location × FileNode)
  workDir : Location
  /-- What comes of the next writes and syncs, one after the other. After those nothing goes wrong. -/
  hitches : List Hitch := []
  deriving Inhabited

namespace FileSystem

/-! ## Nodes -/

/-- What is at a location. -/
def node? (fs : FileSystem) (l : Location) : Option FileNode :=
  if l = [] then some .directory else fs.entries.lookup l

/-- The content of the file at a location. -/
def content? (fs : FileSystem) (l : Location) : Option ByteArray :=
  match fs.node? l with
  | some (.file content) => some content
  | _ => none

/-- Replaces the node at a location in a list of entries, or adds one at its end. -/
def putEntry (l : Location) (node : FileNode) : List (Location × FileNode) → List (Location × FileNode)
  | [] => [(l, node)]
  | (k, old) :: rest => if k = l then (k, node) :: rest else (k, old) :: putEntry l node rest

/-- Puts a node at a location. -/
def put (fs : FileSystem) (l : Location) (node : FileNode) : FileSystem :=
  { fs with entries := putEntry l node fs.entries }

/-- Takes away what is at a location. -/
def remove (fs : FileSystem) (l : Location) : FileSystem :=
  { fs with entries := fs.entries.filter fun e => e.1 != l }

/-! ## Walking -/

/-- The longest name of a file or directory, in bytes. -/
def maxName : Nat := 255

/-- The length from which on a path is too long, in bytes. -/
def pathLimit : Nat := 4096

/-- Enters a directory from another one. -/
def enter (fs : FileSystem) (dir : Location) (segment : FileName) : Except FileError Location :=
  if segment = .here then .ok dir
  else if segment = .up then .ok dir.dropLast
  else if maxName < segment.length then .error .invalidFilename
  else match fs.node? (dir ++ [segment]) with
    | none => .error .notFound
    | some .directory => .ok (dir ++ [segment])
    | some _ => .error .notADirectory

/-- Enters directories one after the other. -/
def enterAll (fs : FileSystem) (dir : Location) : List FileName → Except FileError Location
  | [] => .ok dir
  | segment :: rest =>
    match fs.enter dir segment with
    | .ok dir => enterAll fs dir rest
    | .error e => .error e

/-- Where a path leads: the directory that its last part is looked up in, the last part (none for the
root), and whether separators follow it. -/
structure Place where
  dir : Location
  last : Option FileName
  slash : Bool
  deriving DecidableEq

/-- Walks along a path up to its last part. -/
def walk (fs : FileSystem) (p : Path) : Except FileError Place :=
  let segments := (Path.split p.bytes).filter (· ≠ [])
  let start := if p.isAbsolute then [] else fs.workDir
  if p.isEmpty then .error .notFound
  else if 0 ∈ p.bytes then .error .invalidInput
  else if pathLimit ≤ p.bytes.length then .error .invalidFilename
  else
    match fs.enterAll start segments.dropLast with
    | .ok dir => .ok ⟨dir, segments.getLast?, p.isEnded⟩
    | .error e => .error e

/-- The location of what is at a path. Separators at the end ask for a directory. -/
def find (fs : FileSystem) (p : Path) : Except FileError Location :=
  match fs.walk p with
  | .error e => .error e
  | .ok place =>
    match place.last with
    | none => .ok place.dir
    | some name =>
      if name = .here then .ok place.dir
      else if name = .up then .ok place.dir.dropLast
      else if maxName < name.length then .error .invalidFilename
      else match fs.node? (place.dir ++ [name]) with
        | none => .error .notFound
        | some .directory => .ok (place.dir ++ [name])
        | some _ => if place.slash then .error .notADirectory else .ok (place.dir ++ [name])

/-- Whether something can be found at a path. -/
def exists? (fs : FileSystem) (p : Path) : Bool :=
  match fs.find p with
  | .ok _ => true
  | .error _ => false

/-- Whether a directory can be found at a path. -/
def isDirectory (fs : FileSystem) (p : Path) : Bool :=
  match fs.find p with
  | .ok l => (fs.node? l).any FileNode.isDirectory
  | .error _ => false

/-- The content of the file at a path. -/
def read (fs : FileSystem) (p : Path) : Except FileError ByteArray :=
  match fs.find p with
  | .error e => .error e
  | .ok l =>
    match fs.node? l with
    | some (.file content) => .ok content
    | some .full => .ok .empty
    | _ => .error .isADirectory

/-- The text of the file at a path. -/
def readText (fs : FileSystem) (p : Path) : Except FileError String :=
  match fs.read p with
  | .error e => .error e
  | .ok content =>
    match String.fromUTF8? content with
    | some s => .ok s
    | none => .error .invalidData

end FileSystem

end Fixtures
