/-
Reading options from tables. A table that holds the values of some options, each under its key, is read as these
values and the defaults of all other options, whichever tables are missing.
-/
import Fixtures.Options.Reader
import Fixtures.Proofs.Options.Field
import Fixtures.Proofs.Text.Utf8
import Fixtures.Proofs.Toml.Table

namespace Fixtures

open Document Toml

variable {α : Type} {n : UInt64} {p : Path} {t : DateTime} {f : Field} {done : List Field} {o : Options}

/-! ## Values -/

/-- A value that a text can say: a path has to be a text. -/
def FieldValue.HasText : FieldValue → Prop
  | path p => ∃ s, p = .ofText s
  | _ => True

/-- The value that a settings text has for a value of an option. -/
def FieldValue.toToml : FieldValue → Toml
  | number n => .integer n
  | path p => .text p.display
  | moment t => .text (String.ofList t.text)

theorem uint64?_integer (n : UInt64) : uint64? (Toml.integer n.toNat) = some n := by
  have hlt : n.toNat < 18446744073709551616 := n.toNat_lt
  have hin : integerIn? 0 0xffffffffffffffff (Toml.integer n.toNat) = some (n.toNat : Int) := if_pos (by omega)
  rw [uint64?, hin]
  exact congrArg some UInt64.ofNat_toNat

theorem uint32?_integer (n : UInt32) : uint32? (Toml.integer n.toNat) = some n := by
  have hlt : n.toNat < 4294967296 := n.toNat_lt
  have hin : integerIn? 0 0xffffffff (Toml.integer n.toNat) = some (n.toNat : Int) := if_pos (by omega)
  rw [uint32?, hin]
  exact congrArg some UInt32.ofNat_toNat

theorem int64?_integer (n : Int64) : int64? (Toml.integer n.toInt) = some n := by
  have hlow : -9223372036854775808 ≤ n.toInt := n.le_toInt
  have hhigh : n.toInt < 9223372036854775808 := n.toInt_lt
  have hin : integerIn? (-0x8000000000000000) 0x7fffffffffffffff (Toml.integer n.toInt) = some n.toInt :=
    if_pos (by omega)
  rw [int64?, hin]
  exact congrArg some (Int64.ofInt_toInt n)

theorem Path.ofDocument?_display (p : Path) (h : (FieldValue.path p).HasText) :
    Path.ofDocument? (Toml.text p.display) = some p := by
  obtain ⟨s, rfl⟩ := h
  rw [Path.display_ofText]
  rfl

theorem DateTime.ofDocument?_text (t : DateTime) :
    DateTime.ofDocument? (Toml.text (String.ofList t.text)) = some t.asRead := by
  show DateTime.read? (String.ofList t.text).toList = some t.asRead
  rw [String.toList_ofList, DateTime.read?_text]

namespace Options

/-! ## Options of which some are set -/

/-- Options that are those of `o` for some fields, and have their defaults for all others. -/
def taken (done : List Field) (o : Options) : Options :=
  let pick {α : Type} (f : Field) (x d : α) : α := if f ∈ done then x else d
  let d : Options := {}
  { outDir := pick .outDir o.outDir d.outDir
    seed := pick .seed o.seed d.seed
    nested := {
      maxDepth := pick .maxDepth o.nested.maxDepth d.nested.maxDepth
      keys := pick .keys o.nested.keys d.nested.keys
      shape := {
        intMin := pick .intMin o.nested.shape.intMin d.nested.shape.intMin
        intMax := pick .intMax o.nested.shape.intMax d.nested.shape.intMax
        floatScale := pick .floatScale o.nested.shape.floatScale d.nested.shape.floatScale
        textLength := pick .textLength o.nested.shape.textLength d.nested.shape.textLength
        minChildren := pick .minChildren o.nested.shape.minChildren d.nested.shape.minChildren
        maxChildren := pick .maxChildren o.nested.shape.maxChildren d.nested.shape.maxChildren }
      out := pick .nestedOut o.nested.out d.nested.out }
    array := {
      count := pick .arrayCount o.array.count d.array.count
      out := pick .arrayOut o.array.out d.array.out }
    ndjson := {
      count := pick .ndjsonCount o.ndjson.count d.ndjson.count
      out := pick .ndjsonOut o.ndjson.out d.ndjson.out }
    csv := {
      rows := pick .rows o.csv.rows d.csv.rows
      spanDays := pick .spanDays o.csv.spanDays d.csv.spanDays
      stop := pick .stop o.csv.stop d.csv.stop
      out := pick .csvOut o.csv.out d.csv.out } }

theorem value?_taken (done : List Field) (o : Options) (f : Field) :
    (o.taken done).value? f = if f ∈ done then o.value? f else ({} : Options).value? f := by
  unfold taken
  cases f <;> simp only [value?] <;> split <;> rfl

/-! ## Tables of values -/

/-- What is seen under the key of an option, of which the values of some are set. -/
def markOf? (done : List Field) (o : Options) (f : Field) : Option Mark :=
  if f ∈ done then (o.value? f).map fun v => .leaf v.toToml else none

/-- A table has the values of the options that are set under their keys. -/
def Holds (o : Options) (done : List Field) (table : Table) (entries : Entries) : Prop :=
  ∀ f, f.table = table → entries.mark? [] f.key = markOf? done o f

variable {entries : Entries}

/-- An option is read as what is set, or as its default. -/
theorem optional_value (f : Field) (hmark : Entries.mark? [] f.key entries = markOf? done o f) {read : Toml → Option α}
    {x d : α} (hread : f ∈ done → ∃ v, o.value? f = some v ∧ read v.toToml = some x) :
    optional (closeEntries entries) f.key d read = some (if f ∈ done then x else d) := by
  rw [Document.optional, Entries.lookup_closeEntries]
  rw [Entries.mark?, Entries.node?, markOf?] at hmark
  split at hmark
  · rename_i hf
    obtain ⟨v, hv, hread⟩ := hread hf
    obtain ⟨node, hnode, hleaf⟩ : ∃ node, entries.lookup f.key = some node ∧ node.mark = .leaf v.toToml := by
      rw [hv] at hmark
      exact Option.map_eq_some_iff.1 hmark
    cases node with
    | leaf w =>
      cases hleaf
      rw [hnode, if_pos hf]
      exact hread
    | table | tables => cases hleaf
  · rename_i hf
    rw [Option.map_eq_none_iff.1 hmark, if_neg hf]
    rfl

/-- A table of options is read as it is, or as an empty one where it is missing. -/
theorem optional_table {root : Entries} {key : String} {read : Toml → Option α} {d : α}
    (hmark : ∀ mark, Entries.mark? [] key root = some mark → ∃ origin, mark = .table origin)
    (hempty : read (.table []) = some d) :
    optional (closeEntries root) key d read = read (.table (closeEntries (Node.inside (root.lookup key)))) := by
  rw [Document.optional, Entries.lookup_closeEntries]
  rw [Entries.mark?, Entries.node?] at hmark
  cases hlookup : root.lookup key with
  | none => exact hempty.symm
  | some node =>
    rw [hlookup] at hmark
    obtain ⟨origin, horigin⟩ := hmark _ rfl
    cases node with
    | table origin entries => rfl
    | leaf | tables => cases horigin

theorem optional_uint64 (f : Field) (hmark : Entries.mark? [] f.key entries = markOf? done o f) {x : UInt64}
    (hvalue : o.value? f = some (.number x.toNat)) (d : UInt64) :
    Document.optional (closeEntries entries) f.key d uint64? = some (if f ∈ done then x else d) :=
  optional_value f hmark fun _ => ⟨_, hvalue, uint64?_integer x⟩

theorem optional_int64 (f : Field) (hmark : Entries.mark? [] f.key entries = markOf? done o f) {x : Int64}
    (hvalue : o.value? f = some (.number x.toInt)) (d : Int64) :
    Document.optional (closeEntries entries) f.key d int64? = some (if f ∈ done then x else d) :=
  optional_value f hmark fun _ => ⟨_, hvalue, int64?_integer x⟩

/-- An option that can be left out is read as its value is, where it is set. -/
theorem optional_nullable {β : Type} (f : Field) (hmark : Entries.mark? [] f.key entries = markOf? done o f)
    (hsome : f ∈ done → ∃ v, o.value? f = some v ∧ v.HasText) {x y : Option β} {value : β → FieldValue}
    {read : Toml → Option β} {g : β → β} (hvalue : o.value? f = x.map value)
    (hread : ∀ b, (value b).HasText → read (value b).toToml = some (g b)) (hg : x.map g = y) (d : Option β) :
    Document.optional (closeEntries entries) f.key d (nullable read) = some (if f ∈ done then y else d) := by
  refine optional_value f hmark fun hf => ?_
  obtain ⟨v, hv, htext⟩ := hsome hf
  rw [hvalue] at hv ⊢
  cases x with
  | none => cases hv
  | some b =>
    cases hv
    exact ⟨value b, rfl, (congrArg (Option.map some) (hread b htext)).trans (congrArg some hg)⟩

/-! ## All tables -/

theorem shape_ofDocument? (hholds : o.Holds done .shape entries)
    (hfloats : ∀ key ∈ ["float_min", "float_max"], Entries.mark? [] key entries = none) :
    Shape.ofDocument? (Toml.table (closeEntries entries)) = some (o.asRead.taken done).nested.shape := by
  have hintMin : ∀ d, Document.optional (closeEntries entries) "int_min" d int64? = _ :=
    optional_int64 .intMin (hholds _ rfl) rfl
  have hintMax : ∀ d, Document.optional (closeEntries entries) "int_max" d int64? = _ :=
    optional_int64 .intMax (hholds _ rfl) rfl
  have hlength : ∀ d, Document.optional (closeEntries entries) "string_len" d uint64? = _ :=
    optional_uint64 .textLength (hholds _ rfl) rfl
  have hminChildren : ∀ d, Document.optional (closeEntries entries) "min_children" d uint64? = _ :=
    optional_uint64 .minChildren (hholds _ rfl) rfl
  have hmaxChildren : ∀ d, Document.optional (closeEntries entries) "max_children" d uint64? = _ :=
    optional_uint64 .maxChildren (hholds _ rfl) rfl
  have hscale (d : UInt32) : Document.optional (closeEntries entries) "float_scale" d uint32? = _ :=
    optional_value .floatScale (hholds _ rfl) fun _ => ⟨_, rfl, uint32?_integer _⟩
  have hfloat (key : String) (hkey : key ∈ ["float_min", "float_max"]) (d : Double) :
      Document.optional (closeEntries entries) key d double? = some d := by
    have hmark := hfloats key hkey
    rw [Entries.mark?, Entries.node?, Option.map_eq_none_iff] at hmark
    rw [Document.optional, Entries.lookup_closeEntries, hmark]
    rfl
  have hfields : fields? Shape.fieldNames (Toml.table (closeEntries entries)) = some (closeEntries entries) := rfl
  unfold Shape.ofDocument?
  simp only [hfields, hintMin, hintMax, hfloat "float_min" (by simp), hfloat "float_max" (by simp), hscale, hlength,
    hminChildren, hmaxChildren, Option.bind_eq_bind, Option.bind_some]
  rfl

variable (hsome : ∀ f ∈ done, ∃ v, o.value? f = some v ∧ v.HasText)
include hsome

theorem nested_ofDocument? (hholds : o.Holds done .nested entries)
    (hshape : ∀ mark, Entries.mark? [] "shape" entries = some mark → ∃ origin, mark = .table origin)
    (hread : Shape.ofDocument? (Toml.table (closeEntries (Node.inside (entries.lookup "shape")))) =
      some (o.asRead.taken done).nested.shape) :
    NestedOptions.ofDocument? (Toml.table (closeEntries entries)) = some (o.asRead.taken done).nested := by
  have hdepth : ∀ d, Document.optional (closeEntries entries) "max_depth" d uint64? = _ :=
    optional_uint64 .maxDepth (hholds _ rfl) rfl
  have hkeys : ∀ d, Document.optional (closeEntries entries) "num_keys" d uint64? = _ :=
    optional_uint64 .keys (hholds _ rfl) rfl
  have hout : ∀ d, Document.optional (closeEntries entries) "out" d (nullable Path.ofDocument?) = _ :=
    optional_nullable .nestedOut (hholds _ rfl) (hsome _) rfl Path.ofDocument?_display Option.map_id'
  have htable := optional_table hshape (show Shape.ofDocument? (Toml.table []) = some {} from rfl)
  have hfields : fields? NestedOptions.fieldNames (Toml.table (closeEntries entries)) =
      some (closeEntries entries) := rfl
  unfold NestedOptions.ofDocument?
  simp only [hfields, hdepth, hkeys, htable, hread, hout, Option.bind_eq_bind, Option.bind_some]
  rfl

/-- The options of a counted fixture, which are those of two fields. -/
theorem count_ofDocument? {count out : Field} {x : CountOptions} (d : CountOptions) (hcountKey : count.key = "count")
    (houtKey : out.key = "out") (hcount : Entries.mark? [] count.key entries = markOf? done o count)
    (hout : Entries.mark? [] out.key entries = markOf? done o out)
    (hcountValue : o.value? count = some (.number x.count.toNat)) (houtValue : o.value? out = x.out.map .path) :
    CountOptions.ofDocument? d (Toml.table (closeEntries entries)) =
      some ⟨if count ∈ done then x.count else d.count, if out ∈ done then x.out else d.out⟩ := by
  have hcount := optional_uint64 count hcount hcountValue
  have hout := optional_nullable out hout (hsome _) houtValue Path.ofDocument?_display Option.map_id'
  rw [hcountKey] at hcount
  rw [houtKey] at hout
  have hfields : fields? CountOptions.fieldNames (Toml.table (closeEntries entries)) =
      some (closeEntries entries) := rfl
  unfold CountOptions.ofDocument?
  simp only [hfields, hcount, hout, Option.bind_eq_bind, Option.bind_some]
  rfl

theorem csv_ofDocument? (hholds : o.Holds done .csv entries) :
    CsvOptions.ofDocument? (Toml.table (closeEntries entries)) = some (o.asRead.taken done).csv := by
  have hrows : ∀ d, Document.optional (closeEntries entries) "rows" d uint64? = _ :=
    optional_uint64 .rows (hholds _ rfl) rfl
  have hspan : ∀ d, Document.optional (closeEntries entries) "span_days" d int64? = _ :=
    optional_int64 .spanDays (hholds _ rfl) rfl
  have hstop : ∀ d, Document.optional (closeEntries entries) "end" d (nullable DateTime.ofDocument?) = _ :=
    optional_nullable .stop (hholds _ rfl) (hsome _) rfl (fun t _ => DateTime.ofDocument?_text t) rfl
  have hout : ∀ d, Document.optional (closeEntries entries) "out" d (nullable Path.ofDocument?) = _ :=
    optional_nullable .csvOut (hholds _ rfl) (hsome _) rfl Path.ofDocument?_display Option.map_id'
  have hfields : fields? CsvOptions.fieldNames (Toml.table (closeEntries entries)) = some (closeEntries entries) := rfl
  unfold CsvOptions.ofDocument?
  simp only [hfields, hrows, hspan, hstop, hout, Option.bind_eq_bind, Option.bind_some]
  rfl

/-- A document with the values of some options is read as these options, with defaults for the others. -/
theorem ofDocument?_taken {root : Entries}
    (hvalues : ∀ f : Field, Entries.mark? f.table.path f.key root = markOf? done o f)
    (htables : ∀ (t : Table) p k, t.path = p ++ [k] → ∀ mark, Entries.mark? p k root = some mark →
      ∃ origin, mark = .table origin)
    (hfloats : ∀ key ∈ ["float_min", "float_max"], Entries.mark? Table.shape.path key root = none) :
    Options.ofDocument? (Toml.table (closeEntries root)) = some (o.asRead.taken done) := by
  have hdir (d : Path) : Document.optional (closeEntries root) "out_dir" d Path.ofDocument? = _ :=
    optional_value .outDir (hvalues .outDir) fun hf => by
      obtain ⟨v, hv, htext⟩ := hsome _ hf
      cases hv
      exact ⟨_, rfl, Path.ofDocument?_display o.outDir htext⟩
  have hseed : ∀ d, Document.optional (closeEntries root) "seed" d (nullable uint64?) = _ :=
    optional_nullable .seed (hvalues .seed) (hsome _) rfl (fun s _ => uint64?_integer s) Option.map_id'
  -- a missing table is read as an empty one, and the keys of an option are those on the way to its table
  have hholds (t : Table) {entries : Entries}
      (h : ∀ key, Entries.mark? t.path key root = Entries.mark? [] key entries) : o.Holds done t entries := by
    intro f hf
    rw [← h, ← hf]
    exact hvalues f
  have hshape : Shape.ofDocument? (Toml.table (closeEntries (Node.inside
      ((Node.inside (root.lookup "nested")).lookup "shape")))) = some (o.asRead.taken done).nested.shape :=
    shape_ofDocument? (hholds .shape fun _ => rfl) hfloats
  have hnested := (optional_table (htables .nested [] _ rfl)
    (show NestedOptions.ofDocument? (Toml.table []) = some {} from rfl)).trans
      (nested_ofDocument? hsome (hholds .nested fun _ => rfl) (htables .shape ["nested"] _ rfl) hshape)
  have harray := (optional_table (htables .array [] _ rfl)
    (show CountOptions.ofDocument? ({} : Options).array (Toml.table []) = some ({} : Options).array from rfl)).trans
      (count_ofDocument? hsome _ rfl rfl (hvalues .arrayCount) (hvalues .arrayOut) rfl rfl)
  have hndjson := (optional_table (htables .ndjson [] _ rfl)
    (show CountOptions.ofDocument? ({} : Options).ndjson (Toml.table []) = some ({} : Options).ndjson from rfl)).trans
      (count_ofDocument? hsome _ rfl rfl (hvalues .ndjsonCount) (hvalues .ndjsonOut) rfl rfl)
  have hcsv := (optional_table (htables .csv [] _ rfl)
    (show CsvOptions.ofDocument? (Toml.table []) = some {} from rfl)).trans
      (csv_ofDocument? hsome (hholds .csv fun _ => rfl))
  have hfields : fields? Options.fieldNames (Toml.table (closeEntries root)) = some (closeEntries root) := rfl
  unfold Options.ofDocument?
  simp only [hfields, hdir, hseed, hnested, harray, hndjson, hcsv, Option.bind_eq_bind, Option.bind_some]
  rfl

end Options

end Fixtures
