/-
Writing records of CSV to a file. The text is collected in blocks before it goes to the output.
-/
import Fixtures.Csv.Record
import Fixtures.Output.Json

namespace Fixtures

namespace Csv

/-- A sink with the block that is being collected. -/
structure Blocks (ω : Type) where
  sink : ω
  pending : ByteArray

namespace Blocks

variable {ω : Type} [Sink ω]

/-- The size of a block. -/
def capacity : Nat := 8192

/-- Writes what was collected. -/
def pass (b : Blocks ω) : Except FileError Unit × Blocks ω :=
  match Sink.writeAll b.sink b.pending with
  | (.ok _, sink) => (.ok (), ⟨sink, .empty⟩)
  | (.error e, sink) => (.error e, ⟨sink, b.pending⟩)

/-- Collects a mark; the block is written before if the mark does not fit. -/
def putMark (b : Blocks ω) (data : ByteArray) : Except FileError Unit × Blocks ω :=
  if b.pending.size + data.size ≤ capacity then (.ok (), { b with pending := b.pending ++ data })
  else match b.pass with
    | (.ok _, b) => (.ok (), { b with pending := b.pending ++ data })
    | (.error e, b) => (.error e, b)

/-- Collects a text, block by block, with at most so many full blocks. -/
def putText : (fuel : Nat) → Blocks ω → ByteArray → Except FileError Unit × Blocks ω
  | 0, b, _ => (.ok (), b)
  | fuel + 1, b, data =>
    let room := capacity - b.pending.size
    if data.size ≤ room then (.ok (), { b with pending := b.pending ++ data })
    else match pass { b with pending := b.pending ++ data.extract 0 room } with
      | (.ok _, b) => putText fuel b (data.extract room data.size)
      | (.error e, b) => (.error e, b)

/-- Collects a token. -/
def put (b : Blocks ω) : Token → Except FileError Unit × Blocks ω
  | .mark cs => b.putMark (encodeText cs)
  | .text cs =>
    let data := encodeText cs
    putText (data.size + 2) b data

/-- Collects tokens one after the other. -/
def putAll : Blocks ω → List Token → Except FileError Unit × Blocks ω
  | b, [] => (.ok (), b)
  | b, token :: rest =>
    match b.put token with
    | (.ok _, b) => putAll b rest
    | (.error e, b) => (.error e, b)

/-- The sink after a last try to write what was collected. -/
def finish (b : Blocks ω) : ω := b.pass.2.sink

end Blocks

end Csv

/-- Writes a header and records to a file; gives the number of bytes. Of a record that is refused the
fields up to there are written. -/
def writeCsv (p : Path) (header : List (List Char)) (records : List Csv.Record) (fs : FileSystem) :
    Except WriteError UInt64 × FileSystem :=
  match FileOutput.create p fs with
  | (.error e, fs) => (.error (.file e), fs)
  | (.ok o, _) =>
    let (tokens, error) := Csv.tokens header records
    match Csv.Blocks.putAll ⟨o, .empty⟩ tokens, error with
    | (.error e, b), _ => (.error (.csv (.file e)), FileOutput.close b.finish)
    | (.ok _, b), some e => (.error (.csv e), FileOutput.close b.finish)
    | (.ok _, b), none =>
      match b.pass with
      | (.ok _, b) => FileOutput.complete b.sink
      | (.error e, b) => (.error (.file e), FileOutput.close b.finish)

end Fixtures
