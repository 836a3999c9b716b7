/-
The contents of fixtures. With options that pass their check, the content of every kind is drawn from
every source unless it is too large to be addressed, has as many records as the options ask for, and is
written to its path byte for byte.
-/
import Fixtures.Proofs.Draw.Repetition
import Fixtures.Proofs.Output.Failure
import Fixtures.Proofs.Output.Writers
import Fixtures.Proofs.Record.Drawn
import Fixtures.Proofs.Record.Ledger
import Fixtures.Proofs.Value.Conformance
import Fixtures.Run.Content

namespace Fixtures

/-! ## Options -/

namespace Options

/-- The number of records that the options ask for. -/
def records (o : Options) : Kind → UInt64
  | .nested => o.nested.keys
  | .array => o.array.count
  | .ndjson => o.ndjson.count
  | .csv => o.csv.rows

/-- Whether the list of a kind's records, and the texts and lists within nested values, can be
addressed. -/
def Addressable (o : Options) : Kind → Prop
  | .nested => o.nested.shape.Addressable ∧ Memory.holds Mapping.entryBytes o.nested.keys.toNat = true
  | .array => Memory.holds CatalogEntry.bytes o.array.count.toNat = true
  | .ndjson => Memory.holds PersonRecord.bytes o.ndjson.count.toNat = true
  | .csv => Memory.holds LedgerRow.bytes o.csv.rows.toNat = true

/-- What a passed check says. -/
theorem error?_eq_none {o : Options} {now : DateTime} (h : o.error? now = none) :
    o.nested.shape.Usable ∧ 0 < o.csv.spanDays ∧ ∃ window, o.csv.window? now = some window := by
  unfold error? at h
  split at h
  · cases h
  split at h
  · cases h
  rename_i hshape
  split at h
  · cases h
  rename_i hspan
  split at h
  · cases h
  · exact ⟨Shape.error?_eq_none_iff.1 hshape, Int64.not_le.1 hspan, _, ‹_›⟩

end Options

/-! ## Drawing -/

namespace Content

/-- The outcome of drawing a content with a number of records. -/
def Drawn (o : Options) (k : Kind) : Except RunError Content → Prop
  | .ok c => c.records = (o.records k).toNat
  | .error e => e = .draw .tooLarge ∧ ¬ o.Addressable k

variable {o : Options} {σ α : Type}

theorem drawn_of_ends {k : Kind} {r : Except RunError Content} (wrap : α → Content) (m : Draw σ α) (source : σ)
    (h : m.Ends (fun a => (wrap a).records = (o.records k).toNat) fun e => e = .tooLarge ∧ ¬ o.Addressable k)
    (hok : ∀ a s, m.run source = (.ok a, s) → r = .ok (wrap a))
    (herror : ∀ e s, m.run source = (.error e, s) → r = .error (.draw e)) : Drawn o k r := by
  rcases hr : m.run source with ⟨e | a, s⟩
  · obtain ⟨rfl, hlarge⟩ := h.of_error hr
    rw [herror _ _ hr]
    exact ⟨rfl, hlarge⟩
  · rw [hok _ _ hr]
    exact h.of_ok hr

/-- A list has as many records as were asked for, or is not addressed. -/
theorem ends_records (o : Options) (k : Kind) {m : Draw σ α} {P : α → Prop} (wrap : List α → Content) {bytes : Nat}
    (hwrap : ∀ l, (wrap l).records = l.length)
    (hbytes : o.Addressable k = (Memory.holds bytes (o.records k).toNat = true))
    (h : m.Ends P fun e => e = .tooLarge ∧ ¬ o.Addressable k) :
    (Draw.list bytes (o.records k).toNat m).Ends (fun l => (wrap l).records = (o.records k).toNat)
      fun e => e = .tooLarge ∧ ¬ o.Addressable k := by
  refine (h.list fun hlarge => ⟨rfl, ?_⟩).mono (fun l hl => (hwrap l).trans hl.1) fun _ he => he
  rw [hbytes, hlarge]
  exact Bool.false_ne_true

theorem draw_spec [WordSource σ] {now : DateTime} (hcheck : o.error? now = none)
    (hleap : (o.csv.stop.getD now).isLeap = false) (k : Kind) (source : σ) :
    Drawn o k (draw o now k source) := by
  obtain ⟨hshape, -, window, hwindow⟩ := Options.error?_eq_none hcheck
  cases k with
  | nested =>
    exact drawn_of_ends nested (Draw.document o.nested.shape o.nested.maxDepth.toNat o.nested.keys.toNat) source
      ((Draw.ends_document hshape fun hlarge => ⟨rfl, hlarge⟩).mono (fun m hm => hm.1) fun _ he => he)
      (fun _ _ h => by simp only [draw, h]) fun _ _ h => by simp only [draw, h]
  | array =>
    exact drawn_of_ends array (CatalogEntry.drawList o.array.count.toNat) source
      (ends_records o .array array (fun _ => rfl) rfl CatalogEntry.ends_draw)
      (fun _ _ h => by simp only [draw, h]) fun _ _ h => by simp only [draw, h]
  | ndjson =>
    exact drawn_of_ends ndjson (PersonRecord.drawList o.ndjson.count.toNat) source
      (ends_records o .ndjson ndjson (fun _ => rfl) rfl PersonRecord.ends_draw)
      (fun _ _ h => by simp only [draw, h]) fun _ _ h => by simp only [draw, h]
  | csv =>
    exact drawn_of_ends csv (LedgerRow.drawList window o.csv.rows.toNat) source
      (ends_records o .csv csv (fun _ => rfl) rfl (LedgerRow.ends_draw_of_ordinary hwindow hleap))
      (fun _ _ h => by simp only [draw, hwindow, h]) fun _ _ h => by simp only [draw, hwindow, h]

/-! ## Contents that were drawn -/

/-- The kind of which a content is. -/
def kind : Content → Kind
  | nested _ => .nested
  | array _ => .array
  | ndjson _ => .ndjson
  | csv _ => .csv

variable {now : DateTime} {k : Kind} {seed : UInt64} {c : Content}

/-- A content of a kind is the list of as many records as the options ask for, from the stream of the kind. -/
theorem ofSeed_eq_ok (h : ofSeed o now k seed = .ok c) :
    match k with
    | .nested => ∃ m s, (Draw.document o.nested.shape o.nested.maxDepth.toNat o.nested.keys.toNat).run
        (ChaCha.ofSeed (k.seed seed)) = (.ok m, s) ∧ c = nested m
    | .array => ∃ entries s, (CatalogEntry.drawList o.array.count.toNat).run (ChaCha.ofSeed (k.seed seed)) =
        (.ok entries, s) ∧ c = array entries
    | .ndjson => ∃ people s, (PersonRecord.drawList o.ndjson.count.toNat).run (ChaCha.ofSeed (k.seed seed)) =
        (.ok people, s) ∧ c = ndjson people
    | .csv => ∃ window, o.csv.window? now = some window ∧
        ∃ rows s, (LedgerRow.drawList window o.csv.rows.toNat).run (ChaCha.ofSeed (k.seed seed)) =
          (.ok rows, s) ∧ c = csv rows := by
  unfold ofSeed draw at h
  cases k with
  | csv =>
    simp only at h ⊢
    split at h
    · cases h
    · rename_i hwindow
      split at h <;> cases h
      exact ⟨_, hwindow, _, _, ‹_›, rfl⟩
  | _ =>
    simp only at h ⊢
    split at h <;> cases h
    exact ⟨_, _, ‹_›, rfl⟩

theorem kind_of_ofSeed (h : ofSeed o now k seed = .ok c) : c.kind = k ∧ c.records = (o.records k).toNat := by
  have hc := ofSeed_eq_ok h
  cases k with
  | nested =>
    obtain ⟨m, s, hrun, rfl⟩ := hc
    exact ⟨rfl, Draw.length_of_run_list hrun⟩
  | array =>
    obtain ⟨entries, s, hrun, rfl⟩ := hc
    exact ⟨rfl, Draw.length_of_run_list hrun⟩
  | ndjson =>
    obtain ⟨people, s, hrun, rfl⟩ := hc
    exact ⟨rfl, Draw.length_of_run_list hrun⟩
  | csv =>
    obtain ⟨window, -, rows, s, hrun, rfl⟩ := hc
    exact ⟨rfl, Draw.length_of_run_list hrun⟩

/-! ## Writing -/

/-- The bytes of a content: documents are indented, records of persons stand one a line, and rows stand
below their header. -/
def bytes : Content → ByteArray
  | nested m => encodeText (m.toJson.text Json.fixtureLayout)
  | array entries => encodeText ((Json.array (entries.map CatalogEntry.toJson)).text Json.fixtureLayout)
  | ndjson people => encodeText (linesText (people.map PersonRecord.toJson))
  | csv rows => encodeText (Csv.text (LedgerRow.header.map String.toList) (rows.map LedgerRow.toCsv))

theorem stores_write (c : Content) (p : Path) (fs : FileSystem) : Stores p c.bytes fs (c.write p fs) := by
  cases c with
  | nested m => exact stores_writeJson p _ fs
  | array entries => exact stores_writeJson p _ fs
  | ndjson people => exact stores_writeNdjson p _ fs
  | csv rows =>
    refine stores_writeCsv p fs fun r hr => ?_
    obtain ⟨row, -, rfl⟩ := List.mem_map.1 hr
    exact ⟨rfl, rfl⟩

/-- A path that cannot be opened fails the write before anything else. -/
theorem write_unopened (c : Content) {p : Path} {fs fs' : FileSystem} {e : FileError}
    (h : FileOutput.create p fs = (.error e, fs')) : c.write p fs = (.error (.file e), fs') := by
  cases c <;> simp [write, writeJson, writeNdjson, writeCsv, h]

end Content

end Fixtures
