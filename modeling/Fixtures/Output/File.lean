/-
Open files as sinks. Each output goes through a counter and a buffer in front of its file.
-/
import Fixtures.FileSystem.Actions
import Fixtures.Output.Buffered
import Fixtures.Output.Counting

namespace Fixtures

/-- A file that is open at its end, in its file system. -/
structure OpenFile where
  files : FileSystem
  location : Location

instance : Sink OpenFile where
  write f data :=
    let (outcome, files) := f.files.write f.location data
    (outcome, { f with files := files })
  flush f := (.ok (), f)
  patience f := f.files.hitches.length

/-- An output that counts what is written and collects it before it goes to its file. -/
abbrev FileOutput := Counting (Buffered OpenFile)

namespace FileOutput

/-- Creates the output at a path, with the directories above it. -/
def create (p : Path) (fs : FileSystem) : Except FileError FileOutput × FileSystem :=
  match fs.makeParents p with
  | (.error e, fs) => (.error e, fs)
  | (.ok _, fs) =>
    match fs.openFile true p with
    | .error e => (.error e, fs)
    | .ok (l, fs) => (.ok (.start (.start ⟨fs, l⟩)), fs)

/-- The file system once the output is closed; what is held back is passed on if it can be. -/
def close (o : FileOutput) : FileSystem := o.inner.finish.files

end FileOutput

end Fixtures
