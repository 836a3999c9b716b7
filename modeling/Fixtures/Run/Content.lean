/-
What the fixture of each kind holds: it is drawn from the stream of the kind's own seed, and written
in the kind's own format.
-/
import Fixtures.Csv.Row
import Fixtures.Options.Check
import Fixtures.Output.Csv
import Fixtures.Output.Ndjson
import Fixtures.Random.ChaCha
import Fixtures.Record.Catalog
import Fixtures.Record.Person
import Fixtures.Value.Json
import Fixtures.Value.Random

namespace Fixtures

/-- The content of a fixture. -/
inductive Content where
  | nested (document : Mapping)
  | array (entries : List CatalogEntry)
  | ndjson (people : List PersonRecord)
  | csv (rows : List LedgerRow)

/-- The reasons for which a run fails. -/
inductive RunError where
  | options (e : OptionsError)
  | draw (e : DrawError)
  | write (e : WriteError)
  deriving DecidableEq, Repr

namespace Content

/-- The content of a kind's fixture, drawn from a source. -/
def draw {σ : Type} [WordSource σ] (o : Options) (now : DateTime) (k : Kind) (source : σ) :
    Except RunError Content :=
  match k with
  | .nested =>
    match (Draw.document o.nested.shape o.nested.maxDepth.toNat o.nested.keys.toNat).run source with
    | (.ok m, _) => .ok (nested m)
    | (.error e, _) => .error (.draw e)
  | .array =>
    match (CatalogEntry.drawList o.array.count.toNat).run source with
    | (.ok entries, _) => .ok (array entries)
    | (.error e, _) => .error (.draw e)
  | .ndjson =>
    match (PersonRecord.drawList o.ndjson.count.toNat).run source with
    | (.ok people, _) => .ok (ndjson people)
    | (.error e, _) => .error (.draw e)
  | .csv =>
    match o.csv.window? now with
    | none => .error (.options .unreachableSpan)
    | some window =>
      match (LedgerRow.drawList window o.csv.rows.toNat).run source with
      | (.ok rows, _) => .ok (csv rows)
      | (.error e, _) => .error (.draw e)

/-- The content of a kind's fixture in a run with a seed. -/
def ofSeed (o : Options) (now : DateTime) (k : Kind) (seed : UInt64) : Except RunError Content :=
  draw o now k (ChaCha.ofSeed (k.seed seed))

/-- The number of entries or records. -/
def records : Content → Nat
  | nested m => m.length
  | array entries => entries.length
  | ndjson people => people.length
  | csv rows => rows.length

/-- Writes the content to a file; gives the number of bytes. -/
def write (c : Content) (p : Path) (fs : FileSystem) : Except WriteError UInt64 × FileSystem :=
  match c with
  | nested m => writeJson p m.toJson fs
  | array entries => writeJson p (.array (entries.map CatalogEntry.toJson)) fs
  | ndjson people => writeNdjson p (people.map PersonRecord.toJson) fs
  | csv rows => writeCsv p (LedgerRow.header.map String.toList) (rows.map LedgerRow.toCsv) fs

end Content

end Fixtures
