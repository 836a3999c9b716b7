/-
Fixtures that grow. A kind's records are drawn one after the other from one stream, and none of them is
written in a way that depends on those behind it. So with one seed the fixture with fewer records is how the
one with more of them begins: by its entries, and for lines and rows by its bytes.
-/
import Fixtures.Proofs.Document.Reading
import Fixtures.Proofs.Record.Drawn
import Fixtures.Proofs.Run.Independence
import Fixtures.Proofs.Text.Bytes
import Fixtures.Proofs.Value.Reading

namespace Fixtures

/-! ## Options that differ in a count -/

namespace Options

/-- The options with another number of records of a kind. -/
def withRecords (o : Options) (k : Kind) (n : UInt64) : Options :=
  match k with
  | .nested => { o with nested := { o.nested with keys := n } }
  | .array => { o with array := { o.array with count := n } }
  | .ndjson => { o with ndjson := { o.ndjson with count := n } }
  | .csv => { o with csv := { o.csv with rows := n } }

variable (o : Options) (k : Kind) (n : UInt64)

@[simp] theorem records_withRecords : (o.withRecords k n).records k = n := by cases k <;> rfl

@[simp] theorem seed_withRecords : (o.withRecords k n).seed = o.seed := by cases k <;> rfl

@[simp] theorem stop_withRecords : (o.withRecords k n).csv.stop = o.csv.stop := by cases k <;> rfl

@[simp] theorem outputPath_withRecords (j : Kind) : (o.withRecords k n).outputPath j = o.outputPath j := by
  cases k <;> cases j <;> rfl

end Options

/-! ## Documents and their beginnings -/

/-- The document with its first items or members only. -/
def Json.first (n : Nat) : Json → Json
  | .array items => .array (items.take n)
  | .object members => .object (members.take n)
  | j => j

/-- The document in the file at a path. -/
def FileSystem.document? (fs : FileSystem) (p : Path) : Option Json :=
  match fs.readText p with
  | .ok s => Json.read? s.toList
  | .error _ => none

theorem FileSystem.document?_of_read {fs : FileSystem} {p : Path} {j : Json} {layout : Json.Layout} (hj : j.WellFormed)
    (h : fs.read p = .ok (encodeText (j.text layout))) : fs.document? p = some j := by
  unfold document?
  rw [readText_encodeText h]
  simp only [String.toList_ofList]
  exact Json.read?_text hj layout

theorem Value.entriesToJson_take : ∀ (n : Nat) (m : Mapping), entriesToJson (m.take n) = (entriesToJson m).take n
  | 0, _ => rfl
  | _ + 1, [] => rfl
  | n + 1, (_, _) :: rest => by simp [entriesToJson, entriesToJson_take n rest]

/-! ## Contents and their beginnings -/

namespace Content

/-- The content with its first records only. -/
def first (n : Nat) : Content → Content
  | nested m => nested (m.take n)
  | array entries => array (entries.take n)
  | ndjson people => ndjson (people.take n)
  | csv rows => csv (rows.take n)

variable {o : Options} {now : DateTime} {k : Kind} {seed n m : UInt64} {short long : Content}

/-- With fewer records the content is the beginning of the one with more. -/
theorem eq_first_of_le (hnm : n ≤ m) (hshort : ofSeed (o.withRecords k n) now k seed = .ok short)
    (hlong : ofSeed (o.withRecords k m) now k seed = .ok long) : short = long.first n.toNat := by
  have hle : n.toNat ≤ m.toNat := UInt64.le_iff_toNat_le.1 hnm
  have hs := ofSeed_eq_ok hshort
  have hl := ofSeed_eq_ok hlong
  cases k with
  | nested =>
    obtain ⟨entries, _, hrun, rfl⟩ := hs
    obtain ⟨entries', _, hrun', rfl⟩ := hl
    exact congrArg nested (Draw.eq_take_of_run_list hle hrun hrun')
  | array =>
    obtain ⟨entries, _, hrun, rfl⟩ := hs
    obtain ⟨entries', _, hrun', rfl⟩ := hl
    exact congrArg array (Draw.eq_take_of_run_list hle hrun hrun')
  | ndjson =>
    obtain ⟨people, _, hrun, rfl⟩ := hs
    obtain ⟨people', _, hrun', rfl⟩ := hl
    exact congrArg ndjson (Draw.eq_take_of_run_list hle hrun hrun')
  | csv =>
    obtain ⟨window, hwindow, rows, _, hrun, rfl⟩ := hs
    obtain ⟨window', hwindow', rows', _, hrun', rfl⟩ := hl
    -- the window does not depend on the number of rows
    obtain rfl : window = window' := Option.some.inj (hwindow.symm.trans hwindow')
    exact congrArg csv (Draw.eq_take_of_run_list hle hrun hrun')

/-- The bytes of the first lines and rows come first. -/
theorem bytes_first {c : Content} (h : c.kind = .ndjson ∨ c.kind = .csv) (n : Nat) :
    ∃ rest, c.bytes = (c.first n).bytes ++ rest := by
  cases c with
  | nested m => simp [kind] at h
  | array entries => simp [kind] at h
  | ndjson people =>
    refine ⟨encodeText (linesText ((people.drop n).map PersonRecord.toJson)), ?_⟩
    rw [first, bytes, bytes, ← encodeText_append, linesText, linesText, linesText, ← List.flatMap_append,
      ← List.map_append, List.take_append_drop]
  | csv rows =>
    refine ⟨encodeText (((rows.drop n).map LedgerRow.toCsv).flatMap fun r => Csv.recordText r.fields), ?_⟩
    rw [first, bytes, bytes, ← encodeText_append, Csv.text, Csv.text, List.append_assoc, ← List.flatMap_append,
      ← List.map_append, List.take_append_drop]

/-- The documents in files that hold a content and its beginning. -/
theorem document?_first {c : Content} {n : Nat} {fs fs' : FileSystem} {p : Path}
    (h : c.kind = .nested ∨ c.kind = .array) (hfirst : fs.read p = .ok (c.first n).bytes) (hall : fs'.read p = .ok c.bytes) :
    ∃ j, fs'.document? p = some j ∧ fs.document? p = some (j.first n) := by
  cases c with
  | nested m =>
    refine ⟨m.toJson, FileSystem.document?_of_read m.wellFormed_toJson hall, ?_⟩
    have hdocument := FileSystem.document?_of_read (Mapping.wellFormed_toJson (m.take n)) hfirst
    rw [hdocument, Mapping.toJson, Mapping.toJson, Value.entriesToJson_take, Json.first]
  | array entries =>
    refine ⟨_, FileSystem.document?_of_read (CatalogEntry.wellFormed_array entries) hall, ?_⟩
    have hdocument := FileSystem.document?_of_read (CatalogEntry.wellFormed_array (entries.take n)) hfirst
    rw [hdocument, List.map_take, Json.first]
  | ndjson people => simp [kind] at h
  | csv rows => simp [kind] at h

end Content

/-! ## Runs -/

namespace Run

/-- Two runs that succeed with one seed and options that differ in the number of records of a kind, the first
one asking for no more than the second: the records of the first fixture are the first ones of the second, and
so are the entries of its document, or its bytes. Behind this stands that the records of any generator may be
drawn in two parts, from any source, as long as the list of all can be addressed; a list that cannot fails before
a word is taken. A log is not to be the file itself. -/
theorem fewer_records_come_first :
    (∀ {σ α : Type} (m : Draw σ α) (bytes n k : Nat) (source : σ),
      (Memory.holds bytes (n + k) = true → (Draw.list bytes (n + k) m).run source = (do
        let l ← Draw.list bytes n m
        let l' ← Draw.list bytes k m
        return l ++ l' : Draw σ (List α)).run source) ∧
      (Memory.holds bytes (n + k) = false → (Draw.list bytes (n + k) m).run source = (.error .tooLarge, source))) ∧
    ∀ {o : Options} {k : Kind} {seed n m : UInt64} {stop : DateTime} {s₁ s₁' s₂ s₂' : Session}, n ≤ m →
      o.seed = some seed → o.csv.stop = some stop → Completes (o.withRecords k n) k s₁ s₁' →
      Completes (o.withRecords k m) k s₂ s₂' →
      (∀ l, s₁'.files.find (o.outputPath k) = .ok l → s₁.journal.location ≠ some l) →
      (∀ l, s₂'.files.find (o.outputPath k) = .ok l → s₂.journal.location ≠ some l) →
      ∃ fewer more : Content, s₁'.files.read (o.outputPath k) = .ok fewer.bytes ∧
        s₂'.files.read (o.outputPath k) = .ok more.bytes ∧
        more.kind = k ∧ more.records = m.toNat ∧ fewer = more.first n.toNat ∧ fewer.records = n.toNat ∧
        (k = .ndjson ∨ k = .csv → ∃ rest, more.bytes = fewer.bytes ++ rest) ∧
        (k = .nested ∨ k = .array → ∃ j, s₂'.files.document? (o.outputPath k) = some j ∧
          s₁'.files.document? (o.outputPath k) = some (j.first n.toNat)) := by
  refine ⟨fun m bytes n k source =>
    ⟨fun h => by rw [Draw.list_add h], fun h => Draw.run_list_of_not_holds h source⟩, ?_⟩
  intro o k seed n m stop s₁ s₁' s₂ s₂' hnm hseed hstop h₁ h₂ hlog₁ hlog₂
  obtain ⟨fewer, hfewer, hread₁⟩ := h₁.read (by simpa using hseed) (by simpa using hlog₁)
  obtain ⟨more, hmore, hread₂⟩ := h₂.read (by simpa using hseed) (by simpa using hlog₂)
  rw [Options.outputPath_withRecords] at hread₁ hread₂
  -- the runs may take place at different times
  rw [Content.ofSeed_eq (Options.agreeOn_self k (by simpa using hstop)) s₁.now s₂.now] at hfewer
  have hfirst := Content.eq_first_of_le hnm hfewer hmore
  obtain ⟨-, hcount₁⟩ := Content.kind_of_ofSeed hfewer
  obtain ⟨hkind, hcount₂⟩ := Content.kind_of_ofSeed hmore
  rw [Options.records_withRecords] at hcount₁ hcount₂
  refine ⟨fewer, more, hread₁, hread₂, hkind, hcount₂, hfirst, hcount₁, fun hk => ?_, fun hk => ?_⟩
  · rw [hfirst]
    exact Content.bytes_first (hkind ▸ hk) n.toNat
  · rw [hfirst] at hread₁
    exact Content.document?_first (hkind ▸ hk) hread₁ hread₂

/-- One person and two persons. -/
theorem fewer_records_come_first_persons :
    let csv : CsvOptions := { stop := some (.startOf ⟨daysBeforeYear 2025, by decide, by decide⟩) }
    let o : Options := { seed := some 42, ndjson := ⟨0, some (.ofText "p")⟩, csv }
    let s : Session := {
      files := { entries := [], workDir := [] }, now := .first, freshSeed := 0, durations := fun _ => 0 }
    let s₁ := (one (o.withRecords .ndjson 1) .ndjson s).2
    let s₂ := (one (o.withRecords .ndjson 2) .ndjson s).2
    Memory.holds PersonRecord.bytes (1 + 1) = true ∧ (1 : UInt64) ≤ 2 ∧
      Completes (o.withRecords .ndjson 1) .ndjson s s₁ ∧ Completes (o.withRecords .ndjson 2) .ndjson s s₂ ∧
      (PersonRecord.drawList (1 + 1)).run (ChaCha.ofSeed 1) = (do
        let l ← PersonRecord.drawList 1
        let l' ← PersonRecord.drawList 1
        return l ++ l' : Draw ChaCha (List PersonRecord)).run (ChaCha.ofSeed 1) ∧
      ∃ fewer more : Content, s₁.files.read (.ofText "p") = .ok fewer.bytes ∧
        s₂.files.read (.ofText "p") = .ok more.bytes ∧
        more.records = 2 ∧ fewer = more.first 1 ∧ ∃ rest, more.bytes = fewer.bytes ++ rest := by
  intro csv o s s₁ s₂
  have hholds : Memory.holds PersonRecord.bytes (1 + 1) = true := by decide
  have hcompletes (n : UInt64) (hok : (one (o.withRecords .ndjson n) .ndjson s).1.toBool = true) :
      Completes (o.withRecords .ndjson n) .ndjson s (one (o.withRecords .ndjson n) .ndjson s).2 := by
    rcases hrun : one (o.withRecords .ndjson n) .ndjson s with ⟨_ | r, s'⟩
    · rw [hrun] at hok
      cases hok
    · exact .one hrun
  have h₁ := hcompletes 1 (by decide +kernel)
  have h₂ := hcompletes 2 (by decide +kernel)
  obtain ⟨fewer, more, hread₁, hread₂, -, hcount, hfirst, -, hbytes, -⟩ :=
    fewer_records_come_first.2 (o := o) (k := .ndjson) (n := 1) (m := 2) (by decide) rfl rfl h₁ h₂
      (fun _ _ h => by cases h) (fun _ _ h => by cases h)
  exact ⟨hholds, by decide, h₁, h₂, (fewer_records_come_first.1 _ _ 1 1 _).1 hholds,
    fewer, more, hread₁, hread₂, hcount, hfirst, hbytes (.inl rfl)⟩

/-- A list that cannot be addressed is not drawn, though each half of it is, one behind the other. -/
theorem halves_drawn_but_not_whole :
    (PersonRecord.drawList (0x100000000000000 + 0x100000000000000)).run (ChaCha.ofSeed 1) =
        (.error .tooLarge, ChaCha.ofSeed 1) ∧
      ∃ people s, (do
        let l ← PersonRecord.drawList 0x100000000000000
        let l' ← PersonRecord.drawList 0x100000000000000
        return l ++ l' : Draw ChaCha (List PersonRecord)).run (ChaCha.ofSeed 1) = (.ok people, s) ∧
        people.length = 0x100000000000000 + 0x100000000000000 := by
  have hhalf : Memory.holds PersonRecord.bytes 0x100000000000000 = true := by decide
  have hwhole : Memory.holds PersonRecord.bytes (0x100000000000000 + 0x100000000000000) = false := by decide
  have hdrawn (source : ChaCha) : ∃ l s, (PersonRecord.drawList 0x100000000000000).run source = (.ok l, s) ∧
      l.length = 0x100000000000000 := by
    obtain ⟨l, s, hrun, hlength, -⟩ :=
      Draw.exists_run_list (PersonRecord.ends_draw (E := fun _ => False)).exists_run hhalf source
    exact ⟨l, s, hrun, hlength⟩
  obtain ⟨l, s₁, hrun, hlength⟩ := hdrawn (ChaCha.ofSeed 1)
  obtain ⟨l', s₂, hrun', hlength'⟩ := hdrawn s₁
  refine ⟨?_, l ++ l', s₂, ?_, by rw [List.length_append, hlength, hlength']⟩
  · rw [PersonRecord.drawList, Draw.run_list_of_not_holds hwhole]
  · exact Draw.run_append hrun hrun'

end Run

end Fixtures
