/-
Writing a file as a whole: the content is prepared in a file beside it, which then takes its place.
-/
import Fixtures.Output.File

namespace Fixtures.FileSystem

/-- The path beside another one under which its next content is prepared: its name as text, with an
ending. -/
def temporary? (p : Path) : Option Path :=
  p.fileName?.map fun name => p.withFileName (.ofText (name.display ++ ".tmp"))

/-- Writes a file as a whole: the content is written beside it and stored, and then takes its place. -/
def writeWhole (p : Path) (data : ByteArray) (fs : FileSystem) : Except FileError Unit × FileSystem :=
  match fs.makeParents p with
  | (.error e, fs) => (.error e, fs)
  | (.ok _, fs) =>
    match temporary? p with
    | none => (.error .invalidInput, fs)
    | some prepared =>
      match fs.openFile true prepared with
      | .error e => (.error e, fs)
      | .ok (l, fs) =>
        match Sink.writeAll (OpenFile.mk fs l) data with
        | (.error e, f) => (.error e, f.files)
        | (.ok _, f) =>
          match f.files.sync l with
          | (.error e, fs) => (.error e, fs)
          | (.ok _, fs) =>
            match fs.rename prepared p with
            | .ok fs => (.ok (), fs)
            | .error e => (.error e, fs)

end Fixtures.FileSystem
