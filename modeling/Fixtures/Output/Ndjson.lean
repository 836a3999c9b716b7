/-
Writing JSON documents to a file, one a line.
-/
import Fixtures.Output.Json

namespace Fixtures

/-- Writes documents, each with an end of line behind it. -/
def writeLines {ω : Type} [Sink ω] : ω → List Json → Except WriteError Unit × ω
  | sink, [] => (.ok (), sink)
  | sink, j :: rest =>
    match Sink.writeChunks sink (j.chunks .compact) with
    | (.error e, sink) => (.error (.json e), sink)
    | (.ok _, sink) =>
      match Sink.writeAll sink (encodeText ['\n']) with
      | (.error e, sink) => (.error (.file e), sink)
      | (.ok _, sink) => writeLines sink rest

/-- Writes documents to a file, one a line; gives the number of bytes. -/
def writeNdjson (p : Path) (documents : List Json) (fs : FileSystem) :
    Except WriteError UInt64 × FileSystem :=
  match FileOutput.create p fs with
  | (.error e, fs) => (.error (.file e), fs)
  | (.ok o, _) =>
    match writeLines o documents with
    | (.ok _, o) => o.complete
    | (.error e, o) => (.error e, o.close)

end Fixtures
