/-
Writing a JSON document to a file, indented by four spaces a level.
-/
import Fixtures.Json.Printer
import Fixtures.Output.Error
import Fixtures.Output.File

namespace Fixtures

/-- The bytes of a text. -/
def encodeText (cs : List Char) : ByteArray := (String.ofList cs).toUTF8

namespace Json

/-- The layout of the JSON fixtures. -/
def fixtureLayout : Layout := .indented 4

/-- The chunks in which a document is written. -/
def chunks (layout : Layout) (j : Json) : List ByteArray := (j.pieces layout).map encodeText

end Json

namespace FileOutput

/-- Flushes an output that was written in full, and closes it; gives the number of bytes. -/
def complete (o : FileOutput) : Except WriteError UInt64 × FileSystem :=
  match Sink.flush o with
  | (.ok _, o) => (.ok o.bytes, o.close)
  | (.error e, o) => (.error (.file e), o.close)

end FileOutput

/-- Writes a document to a file; gives the number of bytes. -/
def writeJson (p : Path) (j : Json) (fs : FileSystem) : Except WriteError UInt64 × FileSystem :=
  match FileOutput.create p fs with
  | (.error e, fs) => (.error (.file e), fs)
  | (.ok o, _) =>
    match Sink.writeChunks o (j.chunks Json.fixtureLayout) with
    | (.ok _, o) => o.complete
    | (.error e, o) => (.error (.json e), o.close)

end Fixtures
