/-
Actions on the file system: files are created and opened, written and synced, directories made, and files
renamed. An action of one step that fails changes no file or directory; one of several steps, or one that
uses up a hitch, gives the file system that it leaves besides its outcome.
-/
import Fixtures.FileSystem.Basic

namespace Fixtures.FileSystem

/-! ## Files -/

/-- Opens the file at a path for writing, emptied or at its end; a missing file is created. -/
def openFile (empty : Bool) (p : Path) (fs : FileSystem) : Except FileError (Location × FileSystem) :=
  match fs.walk p with
  | .error e => .error e
  | .ok place =>
    match place.last with
    | none => .error .isADirectory
    | some name =>
      let l := place.dir ++ [name]
      if place.slash ∨ name = .here ∨ name = .up then .error .isADirectory
      else if maxName < name.length then .error .invalidFilename
      else match fs.node? l with
        | some .directory => .error .isADirectory
        | some .full => .ok (l, fs)
        | some (.file _) => .ok (l, if empty then fs.put l (.file .empty) else fs)
        | none => .ok (l, fs.put l (.file .empty))

/-- Adds bytes at the end of an open file; gives their number. -/
def append (l : Location) (data : ByteArray) (fs : FileSystem) : Except FileError Nat × FileSystem :=
  match fs.node? l with
  | some (.file content) => (.ok data.size, fs.put l (.file (content ++ data)))
  | some .full => (.error .storageFull, fs)
  | _ => (.error .isADirectory, fs)

/-- Offers bytes to an open file; gives how many of them, from the first on, it took. -/
def write (l : Location) (data : ByteArray) (fs : FileSystem) : Except FileError Nat × FileSystem :=
  match fs.hitches with
  | [] => fs.append l data
  | .short n :: rest => { fs with hitches := rest }.append l (data.extract 0 (min n data.size))
  | .failure e :: rest => (.error e, { fs with hitches := rest })

/-- What comes of a sync, and the hitches that it leaves. An interrupted one is repeated. -/
def syncOutcome : List Hitch → Except FileError Unit × List Hitch
  | [] => (.ok (), [])
  | .short _ :: rest => (.ok (), rest)
  | .failure .interrupted :: rest => syncOutcome rest
  | .failure e :: rest => (.error e, rest)

/-- Waits until an open file is stored with all that was written to it. There is nothing to wait for with a
device. -/
def sync (l : Location) (fs : FileSystem) : Except FileError Unit × FileSystem :=
  match fs.node? l with
  | some (.file _) =>
    let (outcome, hitches) := syncOutcome fs.hitches
    (outcome, { fs with hitches })
  | _ => (.error .invalidInput, fs)

/-! ## Directories -/

/-- Makes a directory in one that is there. -/
def makeDirectory (p : Path) (fs : FileSystem) : Except FileError FileSystem :=
  match fs.walk p with
  | .error e => .error e
  | .ok place =>
    match place.last with
    | none => .error .alreadyExists
    | some name =>
      if name = .here ∨ name = .up then .error .alreadyExists
      else if maxName < name.length then .error .invalidFilename
      else match fs.node? (place.dir ++ [name]) with
        | some _ => .error .alreadyExists
        | none => .ok (fs.put (place.dir ++ [name]) .directory)

/-- Makes a directory unless it is there. -/
def ensureDirectory (p : Path) (fs : FileSystem) : Except FileError FileSystem :=
  match fs.makeDirectory p with
  | .ok fs => .ok fs
  | .error e => if fs.isDirectory p then .ok fs else .error e

/-- Makes a directory. It is tried at once, and if the way to it is missing, once more after the
directories above it were made. -/
def makeAfter (above : FileSystem → Except FileError Unit × FileSystem) (p : Path) (fs : FileSystem) :
    Except FileError Unit × FileSystem :=
  match fs.ensureDirectory p with
  | .ok fs => (.ok (), fs)
  | .error .notFound =>
    match above fs with
    | (.error e, fs) => (.error e, fs)
    | (.ok _, fs) =>
      match fs.ensureDirectory p with
      | .ok fs => (.ok (), fs)
      | .error e => (.error e, fs)
  | .error e => (.error e, fs)

/-- Makes the first of some directories, each of which lies in the next one. -/
def makeNested : List Path → FileSystem → Except FileError Unit × FileSystem
  | [], fs => (.ok (), fs)
  | p :: above, fs => makeAfter (makeNested above) p fs

/-- Makes a directory and those above it. -/
def makeDirectories (p : Path) (fs : FileSystem) : Except FileError Unit × FileSystem :=
  if p.isEmpty then (.ok (), fs) else makeAfter (makeNested p.stages.tail) p fs

/-- Makes the directories above a path. -/
def makeParents (p : Path) (fs : FileSystem) : Except FileError Unit × FileSystem :=
  match p.parent? with
  | some dir => if dir.isEmpty then (.ok (), fs) else fs.makeDirectories dir
  | none => (.ok (), fs)

/-! ## Renaming -/

/-- Gives a file another path, in the place of a file that is there. -/
def rename (p q : Path) (fs : FileSystem) : Except FileError FileSystem :=
  match fs.find p, fs.walk q with
  | .error e, _ => .error e
  | _, .error e => .error e
  | .ok source, .ok place =>
    match place.last with
    | none => .error .busy
    | some name =>
      let target := place.dir ++ [name]
      if name = .here ∨ name = .up then .error .busy
      else if maxName < name.length then .error .invalidFilename
      else if place.slash then .error .notADirectory
      else match fs.node? target, fs.node? source with
        | some .directory, _ => .error .isADirectory
        | _, none => .error .notFound
        | _, some node => .ok (if source = target then fs else (fs.put target node).remove source)

end Fixtures.FileSystem
