/-
Runs: one fixture or all of them are drawn and written, and a report is given on each.
-/
import Fixtures.Report
import Fixtures.Run.Content
import Fixtures.Run.Session

namespace Fixtures

namespace Options

/-- What is told about a kind before its content is drawn. -/
def preparation (o : Options) : Kind → Event
  | .nested => .nestedResolved o.nested
  | .array => .building CatalogEntry.generator o.array.count
  | .ndjson => .building PersonRecord.generator o.ndjson.count
  | .csv => .building LedgerRow.generator o.csv.rows

/-- The seed of a run. -/
def runSeed (o : Options) (s : Session) : UInt64 := o.seed.getD s.freshSeed

end Options

namespace Run

/-- Draws and writes the fixture of one kind, with the seed of the run. -/
def fixture (o : Options) (seed : UInt64) (k : Kind) (s : Session) : Except RunError Report × Session :=
  let path := o.outputPath k
  let s := (s.tell (.generating k seed path)).tell (o.preparation k)
  match Content.ofSeed o s.now k seed with
  | .error e => (.error e, s)
  | .ok content =>
    match content.write path s.files with
    | (.error e, files) => (.error (.write e), { s with files := files })
    | (.ok bytes, files) =>
      let records := UInt64.ofNat content.records
      let duration := s.durations k
      let s := { s with files := files }
      (.ok ⟨k, path, seed, records, bytes, duration⟩, s.tell (.written k records bytes duration))

/-- Draws and writes the fixtures of some kinds, up to the first that fails. -/
def fixtures (o : Options) (seed : UInt64) : List Kind → Session → Except RunError (List Report) × Session
  | [], s => (.ok [], s)
  | k :: rest, s =>
    match fixture o seed k s with
    | (.error e, s) => (.error e, s)
    | (.ok report, s) =>
      match fixtures o seed rest s with
      | (.error e, s) => (.error e, s)
      | (.ok reports, s) => (.ok (report :: reports), s)

/-- Runs one kind, if the options are usable. -/
def one (o : Options) (k : Kind) (s : Session) : Except RunError Report × Session :=
  match o.error? s.now with
  | some e => (.error (.options e), s)
  | none => fixture o (o.runSeed s) k s

/-- Runs all kinds with one seed, if the options are usable. -/
def all (o : Options) (s : Session) : Except RunError (List Report) × Session :=
  match o.error? s.now with
  | some e => (.error (.options e), s)
  | none =>
    let seed := o.runSeed s
    fixtures o seed Kind.all (s.tell (.generationStarted seed Kind.all.length))

end Run

end Fixtures
