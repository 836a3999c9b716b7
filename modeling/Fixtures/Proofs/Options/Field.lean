/-
The options one by one: where the settings say an option, and the value that it has. The bounds of floating-point
numbers are left out. Written as texts, options come back but for an end within a leap second that is out of place.
-/
import Fixtures.Options
import Fixtures.Proofs.Calendar.Reading
import Mathlib.Data.List.Infix

namespace Fixtures

/-- The tables of the settings, and their top. -/
inductive Table where
  | top
  | nested
  | shape
  | array
  | ndjson
  | csv
  deriving DecidableEq

/-- An option that can be set by itself. -/
inductive Field where
  | outDir
  | seed
  | maxDepth
  | keys
  | nestedOut
  | intMin
  | intMax
  | floatScale
  | textLength
  | minChildren
  | maxChildren
  | arrayCount
  | arrayOut
  | ndjsonCount
  | ndjsonOut
  | rows
  | spanDays
  | stop
  | csvOut
  deriving DecidableEq

/-- A value of an option. -/
inductive FieldValue where
  | number (n : Int)
  | path (p : Path)
  | moment (t : DateTime)
  deriving DecidableEq

/-- The keys on the way to a table. -/
def Table.path : Table → List String
  | top => []
  | nested => ["nested"]
  | shape => ["nested", "shape"]
  | array => ["array"]
  | ndjson => ["ndjson"]
  | csv => ["csv"]

namespace Field

/-- The table that an option belongs to. -/
def table : Field → Table
  | outDir | seed => .top
  | maxDepth | keys | nestedOut => .nested
  | intMin | intMax | floatScale | textLength | minChildren | maxChildren => .shape
  | arrayCount | arrayOut => .array
  | ndjsonCount | ndjsonOut => .ndjson
  | rows | spanDays | stop | csvOut => .csv

/-- The key of an option within its table. -/
def key : Field → String
  | outDir => "out_dir"
  | seed => "seed"
  | maxDepth => "max_depth"
  | keys => "num_keys"
  | intMin => "int_min"
  | intMax => "int_max"
  | floatScale => "float_scale"
  | textLength => "string_len"
  | minChildren => "min_children"
  | maxChildren => "max_children"
  | arrayCount | ndjsonCount => "count"
  | rows => "rows"
  | spanDays => "span_days"
  | stop => "end"
  | nestedOut | arrayOut | ndjsonOut | csvOut => "out"

end Field

/-! ## Keys -/

def Table.all : List Table := [.top, .nested, .shape, .array, .ndjson, .csv]

theorem Table.mem_all (t : Table) : t ∈ all := by cases t <;> decide

def Field.all : List Field := [
  .outDir, .seed, .maxDepth, .keys, .nestedOut, .intMin, .intMax, .floatScale, .textLength, .minChildren, .maxChildren,
  .arrayCount, .arrayOut, .ndjsonCount, .ndjsonOut, .rows, .spanDays, .stop, .csvOut]

theorem Field.mem_all (f : Field) : f ∈ all := by cases f <;> decide

/-- No two tables are in one place. -/
theorem Table.path_inj {t t' : Table} (h : t.path = t'.path) : t = t' := by
  have hall : ∀ t ∈ all, ∀ t' ∈ all, t.path = t'.path → t = t' := by decide
  exact hall t t.mem_all t' t'.mem_all h

/-- No two options have one key in one table. -/
theorem Field.ext_key {f f' : Field} (htable : f.table = f'.table) (hkey : f.key = f'.key) : f = f' := by
  have hall : ∀ f ∈ all, ∀ f' ∈ all, f.table = f'.table → f.key = f'.key → f = f' := by decide +kernel
  exact hall f f.mem_all f' f'.mem_all htable hkey

/-- No option is where a table is. -/
theorem Field.path_ne (f : Field) (t : Table) : f.table.path ++ [f.key] ≠ t.path := by
  have hall : ∀ f ∈ all, ∀ t ∈ Table.all, f.table.path ++ [f.key] ≠ t.path := by decide
  exact hall f f.mem_all t t.mem_all

/-- What is passed on the way to a table is a table. -/
theorem Table.exists_of_prefix {t : Table} {p : List String} {k : String} (h : p ++ [k] <+: t.path) :
    ∃ t' : Table, t'.path = p ++ [k] ∧ (t' = t ∨ t = .shape ∧ t' = .nested) := by
  have hall : ∀ t ∈ all, ∀ path ∈ t.path.inits, path ≠ [] →
      ∃ t' ∈ all, t'.path = path ∧ (t' = t ∨ t = .shape ∧ t' = .nested) := by decide
  obtain ⟨t', -, hpath, ht'⟩ := hall t t.mem_all (p ++ [k]) ((List.mem_inits _ _).2 h) (by simp)
  exact ⟨t', hpath, ht'⟩

namespace Options

/-- The value of an option, if it has one. -/
def value? (o : Options) : Field → Option FieldValue
  | .outDir => some (.path o.outDir)
  | .seed => o.seed.map fun s => .number s.toNat
  | .maxDepth => some (.number o.nested.maxDepth.toNat)
  | .keys => some (.number o.nested.keys.toNat)
  | .nestedOut => o.nested.out.map .path
  | .intMin => some (.number o.nested.shape.intMin.toInt)
  | .intMax => some (.number o.nested.shape.intMax.toInt)
  | .floatScale => some (.number o.nested.shape.floatScale.toNat)
  | .textLength => some (.number o.nested.shape.textLength.toNat)
  | .minChildren => some (.number o.nested.shape.minChildren.toNat)
  | .maxChildren => some (.number o.nested.shape.maxChildren.toNat)
  | .arrayCount => some (.number o.array.count.toNat)
  | .arrayOut => o.array.out.map .path
  | .ndjsonCount => some (.number o.ndjson.count.toNat)
  | .ndjsonOut => o.ndjson.out.map .path
  | .rows => some (.number o.csv.rows.toNat)
  | .spanDays => some (.number o.csv.spanDays.toInt)
  | .stop => o.csv.stop.map .moment
  | .csvOut => o.csv.out.map .path

/-- No number is below those of 64 bits with a sign. -/
theorem le_of_value? {o : Options} {f : Field} {n : Int} (h : o.value? f = some (.number n)) :
    -0x8000000000000000 ≤ n := by
  have hsigned : ∀ x : Int64, some (FieldValue.number x.toInt) = some (.number n) → -0x8000000000000000 ≤ n := by
    rintro x ⟨⟩
    exact x.le_toInt
  have hunsigned : ∀ k : Nat, some (FieldValue.number k) = some (.number n) → -0x8000000000000000 ≤ n := by
    rintro k ⟨⟩
    omega
  cases f with
  | intMin | intMax | spanDays => exact hsigned _ h
  | maxDepth | keys | floatScale | textLength | minChildren | maxChildren | arrayCount | ndjsonCount | rows =>
    exact hunsigned _ h
  | seed =>
    obtain ⟨s, -, hs⟩ := Option.map_eq_some_iff.1 h
    exact hunsigned _ (congrArg some hs)
  | outDir => cases h
  | nestedOut | arrayOut | ndjsonOut | csvOut | stop =>
    obtain ⟨_, -, hx⟩ := Option.map_eq_some_iff.1 h
    cases hx

/-! ## Options as they are read -/

/-- The options as which their text is read. -/
def asRead (o : Options) : Options := { o with csv := { o.csv with stop := o.csv.stop.map DateTime.asRead } }

theorem map_asRead_eq_self_iff {t : Option DateTime} :
    t.map DateTime.asRead = t ↔ ∀ s, t = some s → s.time.InPlace := by
  cases t with
  | none => simp
  | some s => simp [DateTime.asRead_eq_self_iff]

theorem asRead_eq_self_iff {o : Options} : o.asRead = o ↔ ∀ t, o.csv.stop = some t → t.time.InPlace := by
  rw [← map_asRead_eq_self_iff]
  constructor
  · intro h
    exact congrArg (fun o : Options => o.csv.stop) h
  · intro h
    rw [asRead, h]

theorem stop_asRead_eq_iff {o : Options} :
    o.asRead.value? .stop = o.value? .stop ↔ ∀ t, o.csv.stop = some t → t.time.InPlace := by
  rw [← map_asRead_eq_self_iff]
  exact (Option.map_injective fun t s h => FieldValue.moment.inj h).eq_iff

/-- All options but the end are read as they are. -/
theorem value?_asRead {o : Options} {f : Field} (h : f ≠ .stop) : o.asRead.value? f = o.value? f := by
  cases f with
  | stop => exact absurd rfl h
  | _ => rfl

end Options

end Fixtures
