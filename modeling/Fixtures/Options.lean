/-
The options of a run, with their defaults: where the fixtures are written, how large they are, and
the bounds within which they are drawn.
-/
import Fixtures.Calendar.Text
import Fixtures.FileSystem.Path
import Fixtures.Json.Basic
import Fixtures.Kind
import Fixtures.Shape

namespace Fixtures

/-- Options of the nested document. -/
structure NestedOptions where
  /-- The greatest depth of nesting, at least 1. -/
  maxDepth : UInt64 := 10
  /-- The number of entries of the document. -/
  keys : UInt64 := 30
  shape : Shape := {}
  /-- Where the document is written, unless it goes to the output directory. -/
  out : Option Path := none
  deriving DecidableEq, Inhabited

/-- Options of a fixture of which only the number of records can be chosen. -/
structure CountOptions where
  count : UInt64
  out : Option Path := none
  deriving DecidableEq, Inhabited

/-- Options of the ledger rows. -/
structure CsvOptions where
  rows : UInt64 := 10000
  /-- The days over which rows are dated. -/
  spanDays : Int64 := 1825
  /-- The last instant at which a row is dated; the time of the run if there is none. -/
  stop : Option DateTime := none
  out : Option Path := none
  deriving DecidableEq, Inhabited

/-- Options of a run. -/
structure Options where
  outDir : Path := .ofText "."
  /-- The seed of the run; one is drawn if there is none. -/
  seed : Option UInt64 := none
  nested : NestedOptions := {}
  array : CountOptions := ⟨10000, none⟩
  ndjson : CountOptions := ⟨1000, none⟩
  csv : CsvOptions := {}
  deriving DecidableEq, Inhabited

namespace Options

/-- The path that the options choose for a kind. -/
def chosenPath? (o : Options) : Kind → Option Path
  | .nested => o.nested.out
  | .array => o.array.out
  | .ndjson => o.ndjson.out
  | .csv => o.csv.out

/-- Where the fixture of a kind is written. -/
def outputPath (o : Options) (k : Kind) : Path :=
  (o.chosenPath? k).getD (o.outDir.join (.ofText k.fileName))

end Options

/-! ## As JSON documents

Options with a path that is no text have no document. -/

/-- The text of a path; a path that is no text has no document. -/
def Path.toJson? (p : Path) : Option Json := p.text?.map .string

/-- A path that may be missing. -/
def Path.orNull? : Option Path → Option Json
  | none => some .null
  | some p => p.toJson?

def Shape.toJson (s : Shape) : Json := .object [
  ("int_min", .ofInt s.intMin.toInt),
  ("int_max", .ofInt s.intMax.toInt),
  ("float_min", .ofDouble s.floatMin),
  ("float_max", .ofDouble s.floatMax),
  ("float_scale", .ofInt s.floatScale.toNat),
  ("string_len", .ofInt s.textLength.toNat),
  ("min_children", .ofInt s.minChildren.toNat),
  ("max_children", .ofInt s.maxChildren.toNat)]

def NestedOptions.toJson? (o : NestedOptions) : Option Json := do
  return .object [
    ("max_depth", .ofInt o.maxDepth.toNat),
    ("num_keys", .ofInt o.keys.toNat),
    ("shape", o.shape.toJson),
    ("out", ← Path.orNull? o.out)]

def CountOptions.toJson? (o : CountOptions) : Option Json := do
  return .object [
    ("count", .ofInt o.count.toNat),
    ("out", ← Path.orNull? o.out)]

def CsvOptions.toJson? (o : CsvOptions) : Option Json := do
  return .object [
    ("rows", .ofInt o.rows.toNat),
    ("span_days", .ofInt o.spanDays.toInt),
    ("end", .ofOption (fun t => .string (String.ofList t.text)) o.stop),
    ("out", ← Path.orNull? o.out)]

def Options.toJson? (o : Options) : Option Json := do
  return .object [
    ("out_dir", ← o.outDir.toJson?),
    ("seed", .ofOption (fun s => .ofInt s.toNat) o.seed),
    ("nested", ← o.nested.toJson?),
    ("array", ← o.array.toJson?),
    ("ndjson", ← o.ndjson.toJson?),
    ("csv", ← o.csv.toJson?)]

end Fixtures
