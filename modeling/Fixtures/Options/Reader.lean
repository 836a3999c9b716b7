/-
Reading options, shapes and reports from documents. What an option does not say has its default.
-/
import Fixtures.Document
import Fixtures.Options
import Fixtures.Report

namespace Fixtures

open Document

variable {τ : Type} [Document τ]

def Path.ofDocument? (v : τ) : Option Path := (Document.text? v).map Path.ofText

def DateTime.ofDocument? (v : τ) : Option DateTime :=
  match text? v with
  | some s => DateTime.read? s.toList
  | none => none

def Shape.fieldNames : List String :=
  ["int_min", "int_max", "float_min", "float_max", "float_scale", "string_len", "min_children",
    "max_children"]

def Shape.ofDocument? (v : τ) : Option Shape := do
  let fields ← fields? Shape.fieldNames v
  let d : Shape := {}
  return {
    intMin := ← optional fields "int_min" d.intMin int64?
    intMax := ← optional fields "int_max" d.intMax int64?
    floatMin := ← optional fields "float_min" d.floatMin double?
    floatMax := ← optional fields "float_max" d.floatMax double?
    floatScale := ← optional fields "float_scale" d.floatScale uint32?
    textLength := ← optional fields "string_len" d.textLength uint64?
    minChildren := ← optional fields "min_children" d.minChildren uint64?
    maxChildren := ← optional fields "max_children" d.maxChildren uint64? }

def NestedOptions.fieldNames : List String := ["max_depth", "num_keys", "shape", "out"]

def NestedOptions.ofDocument? (v : τ) : Option NestedOptions := do
  let fields ← fields? NestedOptions.fieldNames v
  let d : NestedOptions := {}
  return {
    maxDepth := ← optional fields "max_depth" d.maxDepth uint64?
    keys := ← optional fields "num_keys" d.keys uint64?
    shape := ← optional fields "shape" d.shape Shape.ofDocument?
    out := ← optional fields "out" d.out (nullable Path.ofDocument?) }

def CountOptions.fieldNames : List String := ["count", "out"]

/-- Reads the options of a counted fixture, with a default count. -/
def CountOptions.ofDocument? (d : CountOptions) (v : τ) : Option CountOptions := do
  let fields ← fields? CountOptions.fieldNames v
  return {
    count := ← optional fields "count" d.count uint64?
    out := ← optional fields "out" d.out (nullable Path.ofDocument?) }

def CsvOptions.fieldNames : List String := ["rows", "span_days", "end", "out"]

def CsvOptions.ofDocument? (v : τ) : Option CsvOptions := do
  let fields ← fields? CsvOptions.fieldNames v
  let d : CsvOptions := {}
  return {
    rows := ← optional fields "rows" d.rows uint64?
    spanDays := ← optional fields "span_days" d.spanDays int64?
    stop := ← optional fields "end" d.stop (nullable DateTime.ofDocument?)
    out := ← optional fields "out" d.out (nullable Path.ofDocument?) }

def Options.fieldNames : List String := ["out_dir", "seed", "nested", "array", "ndjson", "csv"]

def Options.ofDocument? (v : τ) : Option Options := do
  let fields ← fields? Options.fieldNames v
  let d : Options := {}
  return {
    outDir := ← optional fields "out_dir" d.outDir Path.ofDocument?
    seed := ← optional fields "seed" d.seed (nullable uint64?)
    nested := ← optional fields "nested" d.nested NestedOptions.ofDocument?
    array := ← optional fields "array" d.array (CountOptions.ofDocument? d.array)
    ndjson := ← optional fields "ndjson" d.ndjson (CountOptions.ofDocument? d.ndjson)
    csv := ← optional fields "csv" d.csv CsvOptions.ofDocument? }

def Report.fieldNames : List String :=
  ["kind", "path", "seed", "records", "bytes_written", "duration_ms"]

/-- Reads a report; `kind` reads the kind of fixture. -/
def Report.ofDocument? (kind : τ → Option Kind) (v : τ) : Option Report := do
  let fields ← fields? Report.fieldNames v
  return {
    kind := ← required fields "kind" kind
    path := ← required fields "path" Path.ofDocument?
    seed := ← required fields "seed" uint64?
    records := ← required fields "records" uint64?
    bytesWritten := ← required fields "bytes_written" uint64?
    durationMs := ← required fields "duration_ms" uint64? }

end Fixtures
