/-
The program: it takes a picture of the files that a run depends on, lets the run work on the picture,
and carries out what has changed in it.
-/
import Fixtures.CommandLine.Surroundings
import Std.Time.DateTime.Timestamp

namespace Fixtures.Program

/-! ## The picture -/

/-- The device that takes no byte. -/
def fullDevice : Location := .ofTexts ["dev", "full"]

/-- Whether a directory is at a path: only then the path of its own entry can be opened. -/
def isDirectory (path : String) : IO Bool := do
  try
    let _ ← IO.FS.Handle.mk (path ++ "/.") .read
    return true
  catch _ => return false

/-- What is at a location. Another device counts as a file. -/
def nodeAt (l : Location) : IO (Option FileNode) := do
  let path := (Path.ofLocation l).display
  if l = fullDevice then return some .full
  if ← isDirectory path then return some .directory
  try return some (.file (← IO.FS.readBinFile path))
  catch _ => return none

/-- The picture of some locations. -/
def picture (workDir : Location) (locations : List Location) : IO FileSystem := do
  let mut entries := []
  for l in locations do
    if let some node ← nodeAt l then
      if l ≠ [] then entries := entries ++ [(l, node)]
  return { entries, workDir }

/-- The picture of what a run depends on; its settings tell which outputs it has. -/
def surroundings (args : List String) : IO FileSystem := do
  let workDir := Path.location (.ofText (toString (← IO.currentDir)))
  let named ← picture workDir (CommandLine.locations args { entries := [], workDir })
  picture workDir (CommandLine.locations args named)

/-! ## Time and chance -/

def now : IO DateTime := do
  let nanos := (← Std.Time.Timestamp.now).toNanosecondsSinceUnixEpoch
  return ((DateTime.startOf .epoch).add? nanos.val).getD default

def freshSeed : IO UInt64 := do
  return (← IO.getRandomBytes 8).foldl (fun seed byte => seed <<< 8 ||| byte.toUInt64) 0

/-- The milliseconds that it takes to write each fixture, as measured by a rehearsal. -/
def durations (args : List String) (s : Session) : IO (List (Kind × UInt64)) := do
  match CommandLine.plan? args s.files with
  | none => return []
  | some (a, o) =>
    if (o.error? s.now).isSome then return []
    a.command.kinds.mapM fun k => do
      let start ← IO.monoMsNow
      let _ ← IO.lazyPure fun _ => (Run.fixture o (o.runSeed s) k s).2.files.entries.length
      return (k, .ofNat ((← IO.monoMsNow) - start))

def session (args : List String) : IO Session := do
  let s : Session := {
    files := ← surroundings args
    now := ← now
    freshSeed := ← freshSeed
    durations := fun _ => 0 }
  let measured ← durations args s
  return { s with durations := fun k => (measured.lookup k).getD 0 }

/-! ## Carrying out -/

/-- Whether the content of a file starts with another one. -/
def extends? (before after : ByteArray) : Bool := (after.extract 0 before.size).data == before.data

/-- Gives a file its content. What is only added is appended, and a file that is to be replaced as a
whole is prepared beside its place. -/
def store (whole : Bool) (l : Location) (before : Option FileNode) (after : ByteArray) : IO Unit := do
  let path := (Path.ofLocation l).display
  match before with
  | some (.file content) =>
    if whole then
      IO.FS.writeBinFile (path ++ ".tmp") after
      IO.FS.rename (path ++ ".tmp") path
    else if extends? content after then
      let file ← IO.FS.Handle.mk path .append
      file.write (after.extract content.size after.size)
    else IO.FS.writeBinFile path after
  | _ => IO.FS.writeBinFile path after

/-- Carries out what has changed in the picture. -/
def carryOut (wholes : List Location) (before after : FileSystem) : IO Unit := do
  for (l, _) in before.entries do
    if (after.node? l).isNone then IO.FS.removeFile (Path.ofLocation l).display
  for (l, node) in after.entries do
    if !(before.node? l).any node.same then
      match node with
      | .directory => IO.FS.createDir (Path.ofLocation l).display
      | .file content => store (wholes.contains l) l (before.node? l) content
      | .full => pure ()

/-- The files that are replaced as a whole. -/
def wholes (args : List String) (fs : FileSystem) : List Location :=
  match Arguments.read args with
  | .error _ => []
  | .ok a => (a.globals.report.bind fun p => (p.locations fs.workDir).getLast?).toList

/-- Runs the program; gives its exit status. -/
def run (args : List String) : IO UInt32 := do
  let setting ← IO.getEnv "RUST_LOG"
  let s ← session args
  let (outcome, after) := CommandLine.run args setting s
  carryOut (wholes args s.files) s.files after.files
  for line in outcome.lines do IO.println line
  if let some complaint := outcome.complaint? then IO.eprintln complaint
  return .ofNat outcome.status

end Fixtures.Program

def main (args : List String) : IO UInt32 := Fixtures.Program.run args
