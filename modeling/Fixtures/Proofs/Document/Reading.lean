/-
Shapes, options, reports and records are read from their texts. Every field is read by a reader that undoes its
printing: integers of all widths, texts, paths that are texts, instants of the whole calendar, and values that may be
missing. A path that is no text is not printed, and a leap second that is out of place is read as the second behind it.
Of the floating-point numbers it is taken for granted that they are read back, for those that the value holds.
-/
import Fixtures.Proofs.Document.Json
import Fixtures.Proofs.Options.Field
import Fixtures.Record.Reader

namespace Fixtures

open Json (Wrapping ReadsBack wellFormed_ofInt wellFormed_ofDouble)

/-! ## Documents of values -/

theorem Json.wellFormed_ofOption {α : Type} {f : α → Json} (h : ∀ a, (f a).WellFormed) (a : Option α) :
    (ofOption f a).WellFormed := by
  cases a with
  | none => trivial
  | some a => exact h a

/-! ## Paths in documents -/

theorem Path.toJson?_eq_none_iff {p : Path} : p.toJson? = none ↔ p.text? = none := Option.map_eq_none_iff

/-- A path has a document unless it is there and no text. -/
theorem Path.orNull?_eq_none_iff {out : Option Path} : orNull? out = none ↔ ∃ p, out = some p ∧ p.text? = none := by
  cases out with
  | none => simp [orNull?]
  | some p => simp [orNull?, toJson?_eq_none_iff]

/-- What is made with the document of such a path is there just if this document is. -/
theorem Path.bind_orNull?_eq_none_iff {out : Option Path} {f : Json → Json} :
    ((orNull? out).bind fun j => some (f j)) = none ↔ ∃ p, out = some p ∧ p.text? = none := by
  rw [← orNull?_eq_none_iff]
  cases orNull? out <;> simp

theorem NestedOptions.toJson?_eq_none_iff {o : NestedOptions} :
    o.toJson? = none ↔ ∃ p, o.out = some p ∧ p.text? = none := Path.bind_orNull?_eq_none_iff

theorem CountOptions.toJson?_eq_none_iff {o : CountOptions} :
    o.toJson? = none ↔ ∃ p, o.out = some p ∧ p.text? = none := Path.bind_orNull?_eq_none_iff

theorem CsvOptions.toJson?_eq_none_iff {o : CsvOptions} :
    o.toJson? = none ↔ ∃ p, o.out = some p ∧ p.text? = none := Path.bind_orNull?_eq_none_iff

/-- Options have no document just if one of their paths is no text. -/
theorem Options.toJson?_eq_none_iff {o : Options} :
    o.toJson? = none ↔ o.outDir.text? = none ∨ ∃ k p, o.chosenPath? k = some p ∧ p.text? = none := by
  have hkinds : (∃ k p, o.chosenPath? k = some p ∧ p.text? = none) ↔ o.nested.toJson? = none ∨
      o.array.toJson? = none ∨ o.ndjson.toJson? = none ∨ o.csv.toJson? = none := by
    rw [NestedOptions.toJson?_eq_none_iff, CountOptions.toJson?_eq_none_iff, CountOptions.toJson?_eq_none_iff,
      CsvOptions.toJson?_eq_none_iff]
    constructor
    · rintro ⟨k, hk⟩
      cases k with
      | nested => exact .inl hk
      | array => exact .inr (.inl hk)
      | ndjson => exact .inr (.inr (.inl hk))
      | csv => exact .inr (.inr (.inr hk))
    · rintro (h | h | h | h)
      · exact ⟨.nested, h⟩
      · exact ⟨.array, h⟩
      · exact ⟨.ndjson, h⟩
      · exact ⟨.csv, h⟩
  rw [hkinds, ← Path.toJson?_eq_none_iff]
  unfold toJson?
  cases o.outDir.toJson? <;> cases o.nested.toJson? <;> cases o.array.toJson? <;> cases o.ndjson.toJson? <;>
    cases o.csv.toJson? <;> simp

theorem Report.toJson?_eq_none_iff {r : Report} : r.toJson? = none ↔ r.path.text? = none := by
  unfold toJson?
  cases r.path.text? <;> simp

theorem Shape.wellFormed_toJson (s : Shape) : s.toJson.WellFormed :=
  ⟨wellFormed_ofInt _, wellFormed_ofInt _, wellFormed_ofDouble _, wellFormed_ofDouble _, wellFormed_ofInt _,
    wellFormed_ofInt _, wellFormed_ofInt _, wellFormed_ofInt _, trivial⟩

theorem Path.wellFormed_toJson? {p : Path} {j : Json} (h : p.toJson? = some j) : j.WellFormed := by
  obtain ⟨s, -, rfl⟩ := Option.map_eq_some_iff.1 h
  trivial

theorem Path.wellFormed_orNull? {out : Option Path} {j : Json} (h : orNull? out = some j) : j.WellFormed := by
  cases out with
  | none =>
    cases h
    trivial
  | some p => exact wellFormed_toJson? h

theorem NestedOptions.wellFormed_toJson? {o : NestedOptions} {j : Json} (h : o.toJson? = some j) : j.WellFormed := by
  obtain ⟨out, hout, hj⟩ := Option.bind_eq_some_iff.1 h
  cases hj
  exact ⟨wellFormed_ofInt _, wellFormed_ofInt _, o.shape.wellFormed_toJson, Path.wellFormed_orNull? hout, trivial⟩

theorem CountOptions.wellFormed_toJson? {o : CountOptions} {j : Json} (h : o.toJson? = some j) : j.WellFormed := by
  obtain ⟨out, hout, hj⟩ := Option.bind_eq_some_iff.1 h
  cases hj
  exact ⟨wellFormed_ofInt _, Path.wellFormed_orNull? hout, trivial⟩

theorem CsvOptions.wellFormed_toJson? {o : CsvOptions} {j : Json} (h : o.toJson? = some j) : j.WellFormed := by
  obtain ⟨out, hout, hj⟩ := Option.bind_eq_some_iff.1 h
  cases hj
  have hstop := Json.wellFormed_ofOption (f := fun t : DateTime => .string (String.ofList t.text))
    (fun _ => trivial) o.stop
  exact ⟨wellFormed_ofInt _, wellFormed_ofInt _, hstop, Path.wellFormed_orNull? hout, trivial⟩

/-- The documents of the parts of options that have one. -/
theorem Options.exists_of_toJson? {o : Options} {j : Json} (h : o.toJson? = some j) :
    ∃ dir nested array ndjson csv : Json, o.outDir.toJson? = some dir ∧ o.nested.toJson? = some nested ∧
      o.array.toJson? = some array ∧ o.ndjson.toJson? = some ndjson ∧ o.csv.toJson? = some csv ∧
      j = .object [("out_dir", dir), ("seed", .ofOption (fun s => .ofInt s.toNat) o.seed), ("nested", nested),
        ("array", array), ("ndjson", ndjson), ("csv", csv)] := by
  obtain ⟨dir, hdir, h⟩ := Option.bind_eq_some_iff.1 h
  obtain ⟨nested, hnested, h⟩ := Option.bind_eq_some_iff.1 h
  obtain ⟨array, harray, h⟩ := Option.bind_eq_some_iff.1 h
  obtain ⟨ndjson, hndjson, h⟩ := Option.bind_eq_some_iff.1 h
  obtain ⟨csv, hcsv, h⟩ := Option.bind_eq_some_iff.1 h
  cases h
  exact ⟨dir, nested, array, ndjson, csv, hdir, hnested, harray, hndjson, hcsv, rfl⟩

theorem Options.wellFormed_toJson? {o : Options} {j : Json} (h : o.toJson? = some j) : j.WellFormed := by
  obtain ⟨dir, nested, array, ndjson, csv, hdir, hnested, harray, hndjson, hcsv, rfl⟩ := exists_of_toJson? h
  have hseed := Json.wellFormed_ofOption (fun s : UInt64 => wellFormed_ofInt s.toNat) o.seed
  exact ⟨Path.wellFormed_toJson? hdir, hseed, NestedOptions.wellFormed_toJson? hnested,
    CountOptions.wellFormed_toJson? harray, CountOptions.wellFormed_toJson? hndjson,
    CsvOptions.wellFormed_toJson? hcsv, trivial⟩

theorem Report.wellFormed_toJson? {r : Report} {j : Json} (h : r.toJson? = some j) : j.WellFormed := by
  obtain ⟨s, -, hj⟩ := Option.bind_eq_some_iff.1 h
  cases hj
  exact ⟨trivial, trivial, wellFormed_ofInt _, wellFormed_ofInt _, wellFormed_ofInt _, wellFormed_ofInt _, trivial⟩

theorem CatalogEntry.wellFormed_toJson (e : CatalogEntry) : e.toJson.WellFormed :=
  ⟨trivial, trivial, wellFormed_ofInt _, trivial, wellFormed_ofInt _, wellFormed_ofDouble _, trivial⟩

theorem CatalogEntry.wellFormed_array (entries : List CatalogEntry) :
    (Json.array (entries.map toJson)).WellFormed := by
  rw [Json.WellFormed]
  induction entries with
  | nil => trivial
  | cons e rest ih => exact ⟨e.wellFormed_toJson, ih⟩

theorem PersonRecord.wellFormed_toJson (r : PersonRecord) : r.toJson.WellFormed :=
  ⟨trivial, trivial, wellFormed_ofInt _, wellFormed_ofDouble _, trivial, trivial, trivial⟩

theorem LedgerRow.wellFormed_toJson (r : LedgerRow) : r.toJson.WellFormed :=
  ⟨trivial, trivial, trivial, wellFormed_ofInt _, wellFormed_ofDouble _, wellFormed_ofDouble _, trivial⟩

/-! ## Fields of records -/

namespace Document

variable {τ α : Type} {fields : List (String × τ)} {name other : String} {d : α} {read : τ → Option α} {v : τ}

theorem required_head : required ((name, v) :: fields) name read = read v := by
  rw [required, List.lookup_cons_self]

theorem required_tail (h : name ≠ other) : required ((other, v) :: fields) name read = required fields name read := by
  rw [required, List.lookup_cons, beq_false_of_ne h, required]

theorem optional_nil : optional ([] : List (String × τ)) name d read = some d := rfl

theorem optional_head : optional ((name, v) :: fields) name d read = read v := by
  rw [optional, List.lookup_cons_self]

theorem optional_tail (h : name ≠ other) :
    optional ((other, v) :: fields) name d read = optional fields name d read := by
  rw [optional, List.lookup_cons, beq_false_of_ne h, optional]

end Document

/-! ## Values of documents -/

section

open Document

variable {τ : Type} [Document τ] {wrap : Json → τ} (hwrap : Wrapping wrap)
include hwrap

theorem Shape.ofDocument?_toJson {s : Shape} (hmin : ReadsBack wrap s.floatMin) (hmax : ReadsBack wrap s.floatMax) :
    ofDocument? (wrap s.toJson) = some s := by
  have hlow : double? (wrap (.ofDouble s.floatMin)) = some s.floatMin := hmin
  have hhigh : double? (wrap (.ofDouble s.floatMax)) = some s.floatMax := hmax
  unfold ofDocument?
  rw [toJson, hwrap.object]
  · simp [optional_head, optional_tail, hlow, hhigh, hwrap.int64?, hwrap.uint32?, hwrap.uint64?]
  · rfl
  · decide

theorem NestedOptions.ofDocument?_toJson {o : NestedOptions} (hmin : ReadsBack wrap o.shape.floatMin)
    (hmax : ReadsBack wrap o.shape.floatMax) {j : Json} (h : o.toJson? = some j) : ofDocument? (wrap j) = some o := by
  obtain ⟨out, hout, hj⟩ := Option.bind_eq_some_iff.1 h
  cases hj
  unfold ofDocument?
  rw [hwrap.object]
  · simp [optional_head, optional_tail, hwrap.uint64?, Shape.ofDocument?_toJson hwrap hmin hmax, hwrap.pathOrNull hout]
  · rfl
  · decide

theorem CountOptions.ofDocument?_toJson (d : CountOptions) {o : CountOptions} {j : Json} (h : o.toJson? = some j) :
    ofDocument? d (wrap j) = some o := by
  obtain ⟨out, hout, hj⟩ := Option.bind_eq_some_iff.1 h
  cases hj
  unfold ofDocument?
  rw [hwrap.object]
  · simp [optional_head, optional_tail, hwrap.uint64?, hwrap.pathOrNull hout]
  · rfl
  · decide

theorem CsvOptions.ofDocument?_toJson {o : CsvOptions} {j : Json} (h : o.toJson? = some j) :
    ofDocument? (wrap j) = some { o with stop := o.stop.map DateTime.asRead } := by
  obtain ⟨out, hout, hj⟩ := Option.bind_eq_some_iff.1 h
  cases hj
  unfold ofDocument?
  rw [hwrap.object]
  · simp [optional_head, optional_tail, hwrap.uint64?, hwrap.int64?, hwrap.pathOrNull hout,
      hwrap.nullable hwrap.moment fun _ => rfl]
  · rfl
  · decide

theorem Options.ofDocument?_toJson {o : Options} (hmin : ReadsBack wrap o.nested.shape.floatMin)
    (hmax : ReadsBack wrap o.nested.shape.floatMax) {j : Json} (h : o.toJson? = some j) :
    ofDocument? (wrap j) = some o.asRead := by
  obtain ⟨dir, nested, array, ndjson, csv, hdir, hnested, harray, hndjson, hcsv, rfl⟩ := exists_of_toJson? h
  unfold ofDocument?
  rw [hwrap.object]
  · simp [optional_head, optional_tail, hwrap.path hdir, hwrap.nullable hwrap.uint64? fun _ => rfl,
      NestedOptions.ofDocument?_toJson hwrap hmin hmax hnested, CountOptions.ofDocument?_toJson hwrap _ harray,
      CountOptions.ofDocument?_toJson hwrap _ hndjson, CsvOptions.ofDocument?_toJson hwrap hcsv, asRead]
  · rfl
  · decide

/-- A report, whatever reads the kind of its fixture. -/
theorem Report.ofDocument?_toJson {kind : τ → Option Kind} {r : Report}
    (hkind : kind (wrap (.string r.kind.serialName)) = some r.kind) {j : Json} (h : r.toJson? = some j) :
    ofDocument? kind (wrap j) = some r := by
  obtain ⟨s, hs, hj⟩ := Option.bind_eq_some_iff.1 h
  cases hj
  have hpath : Path.ofDocument? (wrap (.string s)) = some r.path := hwrap.path (Option.map_eq_some_iff.2 ⟨s, hs, rfl⟩)
  unfold ofDocument?
  rw [hwrap.object]
  · simp [required_head, required_tail, hkind, hpath, hwrap.uint64?]
  · rfl
  · decide

theorem CatalogEntry.ofDocument?_toJson {e : CatalogEntry} (hscore : ReadsBack wrap e.score) :
    ofDocument? (wrap e.toJson) = some e := by
  have hread : double? (wrap (.ofDouble e.score)) = some e.score := hscore
  unfold ofDocument?
  rw [toJson, hwrap.object]
  · simp [required_head, required_tail, hread, hwrap.string, hwrap.int32?, hwrap.int64?]
  · rfl
  · decide

theorem PersonRecord.ofDocument?_toJson {r : PersonRecord} (hscore : ReadsBack wrap r.score) :
    ofDocument? (wrap r.toJson) = some r := by
  have hread : double? (wrap (.ofDouble r.score)) = some r.score := hscore
  unfold ofDocument?
  rw [toJson, hwrap.object]
  · simp [required_head, required_tail, hread, hwrap.string, hwrap.uint8?, hwrap.bool]
  · rfl
  · decide

theorem LedgerRow.ofDocument?_toJson {r : LedgerRow} (haverage : ReadsBack wrap r.randomAverage)
    (hdecimals : ReadsBack wrap r.randomDecimals) : ofDocument? (wrap r.toJson) = some r := by
  have haverage' : double? (wrap (.ofDouble r.randomAverage)) = some r.randomAverage := haverage
  have hdecimals' : double? (wrap (.ofDouble r.randomDecimals)) = some r.randomDecimals := hdecimals
  unfold ofDocument?
  rw [toJson, hwrap.object]
  · simp [required_head, required_tail, haverage', hdecimals', hwrap.string, hwrap.int64?]
  · rfl
  · decide

end

/-! ## Values of texts -/

/-- Reads a text that holds one document. -/
def Json.readAs? {α : Type} (read : Json → Option α) (s : String) : Option α := (Json.read? s.toList).bind read

theorem Json.readAs?_eq {α : Type} {read : Json → Option α} {j : Json} {a : α} (hj : j.WellFormed)
    (h : read j = some a) : readAs? read j.compact = some a := by
  rw [readAs?, Json.compact, String.toList_ofList, Json.read?_text hj, Option.bind_some, h]

theorem Kind.ofSerialName?_serialName (k : Kind) : ofSerialName? k.serialName = some k := by cases k <;> decide

/-- Shapes, options, reports and records are read from their texts on one line as they were: with integers over the
full range of their widths, with all texts, with every field that may be missing there or not, and with an instant
anywhere in the calendar, but for a leap second that is out of place. Options and reports have a text unless one of
their paths is none. The documents are read as they are or in another wrapping; of the floating-point numbers that the
value holds it is assumed that they are read from their shortest texts. -/
theorem Json.readAs?_compact {τ : Type} [Document τ] {wrap : Json → τ} (hwrap : Wrapping wrap)
    {kind : τ → Option Kind} (hkind : ∀ j, kind (wrap j) = Json.kind? j) :
    (∀ s : Shape, ReadsBack wrap s.floatMin → ReadsBack wrap s.floatMax →
      Json.readAs? (fun j => Shape.ofDocument? (wrap j)) s.toJson.compact = some s) ∧
    (∀ o : Options, ReadsBack wrap o.nested.shape.floatMin → ReadsBack wrap o.nested.shape.floatMax →
      (o.toJson? = none ↔ o.outDir.text? = none ∨ ∃ k p, o.chosenPath? k = some p ∧ p.text? = none) ∧
      (∀ j, o.toJson? = some j →
        Json.readAs? (fun j => Options.ofDocument? (wrap j)) j.compact = some o.asRead) ∧
      (o.asRead = o ↔ ∀ t, o.csv.stop = some t → t.time.InPlace)) ∧
    (∀ r : Report, (r.toJson? = none ↔ r.path.text? = none) ∧
      ∀ j, r.toJson? = some j → Json.readAs? (fun j => Report.ofDocument? kind (wrap j)) j.compact = some r) ∧
    (∀ e : CatalogEntry, ReadsBack wrap e.score →
      Json.readAs? (fun j => CatalogEntry.ofDocument? (wrap j)) e.toJson.compact = some e) ∧
    (∀ r : PersonRecord, ReadsBack wrap r.score →
      Json.readAs? (fun j => PersonRecord.ofDocument? (wrap j)) r.toJson.compact = some r) ∧
    ∀ r : LedgerRow, ReadsBack wrap r.randomAverage → ReadsBack wrap r.randomDecimals →
      Json.readAs? (fun j => LedgerRow.ofDocument? (wrap j)) r.toJson.compact = some r := by
  have hname (k : Kind) : kind (wrap (.string k.serialName)) = some k := by
    rw [hkind, Json.kind?, k.ofSerialName?_serialName]
  refine ⟨fun s hmin hmax => ?_, fun o hmin hmax => ⟨Options.toJson?_eq_none_iff, fun j hj => ?_,
    Options.asRead_eq_self_iff⟩, fun r => ⟨Report.toJson?_eq_none_iff, fun j hj => ?_⟩, fun e hscore => ?_,
    fun r hscore => ?_, fun r haverage hdecimals => ?_⟩
  · exact Json.readAs?_eq s.wellFormed_toJson (Shape.ofDocument?_toJson hwrap hmin hmax)
  · exact Json.readAs?_eq (Options.wellFormed_toJson? hj) (Options.ofDocument?_toJson hwrap hmin hmax hj)
  · exact Json.readAs?_eq (Report.wellFormed_toJson? hj) (Report.ofDocument?_toJson hwrap (hname r.kind) hj)
  · exact Json.readAs?_eq e.wellFormed_toJson (CatalogEntry.ofDocument?_toJson hwrap hscore)
  · exact Json.readAs?_eq r.wellFormed_toJson (PersonRecord.ofDocument?_toJson hwrap hscore)
  · exact Json.readAs?_eq r.wellFormed_toJson (LedgerRow.ofDocument?_toJson hwrap haverage hdecimals)

/-- Options with the greatest seed, a path that is written with escapes and an end within a leap second of the year
before the year 0, and a catalog entry with the least numbers. -/
theorem Json.readAs?_compact_extremes :
    (∃ (o : Options) (j : Json), o.outDir = .ofText "\"\\\x01 é😀" ∧ o.seed = some 0xffffffffffffffff ∧
      o.csv.stop.map DateTime.text = some "-0001-12-31T23:59:60.500".toList ∧ o.toJson? = some j ∧
      readAs? Options.ofDocument? j.compact = some o) ∧
    ∃ e : CatalogEntry, e.year = -0x80000000 ∧ e.randomNumber = -0x8000000000000000 ∧
      readAs? CatalogEntry.ofDocument? e.toJson.compact = some e := by
  obtain ⟨-, hoptions, -, hentry, -⟩ := readAs?_compact wrapping_id fun _ => rfl
  let stop : DateTime := ⟨⟨daysBeforeYear 0 - 1, by decide, by decide⟩, 86399, 1500000000, by decide, by decide⟩
  let o : Options := {
    outDir := .ofText "\"\\\x01 é😀", seed := some 0xffffffffffffffff, csv := { stop := some stop } }
  let e : CatalogEntry := ⟨"", "é", -0x80000000, "", -0x8000000000000000, .zero true⟩
  obtain ⟨hnone, hread, hself⟩ := hoptions o (by decide +kernel) (by decide +kernel)
  obtain ⟨j, hj⟩ : ∃ j, o.toJson? = some j := by
    rw [← Option.ne_none_iff_exists', Ne, hnone]
    rintro (h | ⟨k, p, hk, -⟩)
    · exact absurd h (by decide +kernel)
    · cases k <;> cases hk
  have hplace : o.asRead = o := hself.2 fun t ht => by
    obtain rfl : stop = t := Option.some.inj ht
    decide
  refine ⟨⟨o, j, rfl, rfl, ?_, hj, ?_⟩, ⟨e, rfl, rfl, ?_⟩⟩
  · decide +kernel
  · exact (hread j hj).trans (congrArg some hplace)
  · exact hentry _ (by decide +kernel)

/-- An end within a leap second behind the first second of a day has the text of an instant of the next second and is
read as this instant, and a path of a byte that begins no character has no text. -/
theorem Json.readAs?_compact_changed :
    (∃ (o : Options) (t : DateTime) (j : Json), o.csv.stop = some t ∧ t.isLeap = true ∧
      t.text = "0001-01-01T00:00:01.500".toList ∧ o.toJson? = some j ∧
      ∃ o', readAs? Options.ofDocument? j.compact = some o' ∧ o' ≠ o) ∧
    ∃ o : Options, o.outDir = ⟨[0xff]⟩ ∧ o.toJson? = none := by
  let t : DateTime := ⟨⟨daysBeforeYear 1, by decide, by decide⟩, 0, 1500000000, by decide, by decide⟩
  let o : Options := { csv := { stop := some t } }
  obtain ⟨j, hj⟩ : ∃ j, o.toJson? = some j := Option.isSome_iff_exists.1 (by decide +kernel)
  have hread : readAs? Options.ofDocument? j.compact = some o.asRead :=
    readAs?_eq (Options.wellFormed_toJson? hj)
      (Options.ofDocument?_toJson wrapping_id (by decide +kernel) (by decide +kernel) hj)
  have hchanged : o.asRead ≠ o := by
    rw [Ne, Options.asRead_eq_self_iff]
    intro hplace
    exact absurd (hplace t rfl) (by decide)
  exact ⟨⟨o, t, j, rfl, rfl, by decide +kernel, hj, o.asRead, hread, hchanged⟩, { outDir := ⟨[0xff]⟩ }, rfl,
    by decide +kernel⟩

end Fixtures
