/-
Paths that coincide. A run writes its fixtures one after the other, each in full, so what a path leads to in
the end is the fixture of the last kind whose path leads there. A text tells its kind, so fixtures of different
kinds never have the same bytes: the report on a fixture is true at the end of a run exactly if no later kind
was written to its file.
-/
import Fixtures.Proofs.Json.Text
import Fixtures.Proofs.Run.Independence
import Fixtures.Proofs.Text.Bytes

namespace Fixtures

/-! ## Fixtures of different kinds -/

namespace Content

/-- The characters of a content. -/
def chars : Content → List Char
  | nested m => m.toJson.text Json.fixtureLayout
  | array entries => (Json.array (entries.map CatalogEntry.toJson)).text Json.fixtureLayout
  | ndjson people => linesText (people.map PersonRecord.toJson)
  | csv rows => Csv.text (LedgerRow.header.map String.toList) (rows.map LedgerRow.toCsv)

theorem bytes_eq (c : Content) : c.bytes = encodeText c.chars := by cases c <;> rfl

/-- The kind that the first and the last character of a text tell: the header of the rows starts with their
date, and of documents and lines, which both start with a brace, only the lines end in a line feed. -/
def kindOf (cs : List Char) : Kind :=
  if cs.head? = some '[' then .array
  else if cs.head? = some 'd' then .csv
  else if cs.getLast? = some '}' then .nested
  else .ndjson

theorem kindOf_chars_nested (m : Mapping) : kindOf (nested m).chars = .nested := by
  rw [kindOf, chars, Json.text_eq, Mapping.toJson, Json.textAt, ← List.cons_append, List.getLast?_concat]
  rfl

theorem kindOf_chars_array (entries : List CatalogEntry) : kindOf (array entries).chars = .array := by
  rw [chars, Json.text_eq, Json.textAt]
  rfl

theorem kindOf_chars_ndjson (people : List PersonRecord) : kindOf (ndjson people).chars = .ndjson := by
  cases people with
  | nil => rfl
  | cons person rest =>
    have hhead : (ndjson (person :: rest)).chars.head? = some '{' := by
      rw [chars, List.map_cons, linesText, List.flatMap_cons, Json.text_eq, PersonRecord.toJson, Json.textAt]
      rfl
    have hlast : (ndjson (person :: rest)).chars.getLast? = some '\n' := by
      obtain ⟨before, last, heq⟩ := (List.eq_nil_or_concat (person :: rest)).resolve_left (List.cons_ne_nil _ _)
      rw [heq, chars, linesText, List.concat_eq_append, List.map_append, List.flatMap_append]
      simp
    rw [kindOf, hhead, hlast]
    rfl

theorem kindOf_chars_csv (rows : List LedgerRow) : kindOf (csv rows).chars = .csv := by
  have hheader : (Csv.recordText (LedgerRow.header.map String.toList)).head? = some 'd' := by decide
  rw [kindOf, chars, Csv.text, List.head?_append, hheader]
  rfl

theorem kindOf_chars (c : Content) : kindOf c.chars = c.kind := by
  cases c with
  | nested m => exact kindOf_chars_nested m
  | array entries => exact kindOf_chars_array entries
  | ndjson people => exact kindOf_chars_ndjson people
  | csv rows => exact kindOf_chars_csv rows

theorem kind_eq_of_bytes_eq {c c' : Content} (h : c.bytes = c'.bytes) : c.kind = c'.kind := by
  rw [bytes_eq, bytes_eq, encodeText_inj] at h
  rw [← kindOf_chars, ← kindOf_chars, h]

end Content

/-! ## Reports -/

/-- A report that is true: the file at its path holds the content of its kind, of as many bytes as it says. The
greatest number that a report can say stands for all that are greater. -/
def Report.HoldsIn (r : Report) (o : Options) (now : DateTime) (fs : FileSystem) : Prop :=
  ∃ content, Content.ofSeed o now r.kind r.seed = .ok content ∧ fs.read r.path = .ok content.bytes ∧
    r.bytesWritten.toNat = min content.bytes.size (UInt64.size - 1)

/-- Of the reports on a file the last one is true, and the others are not. -/
def LastReportsHold (o : Options) (now : DateTime) (rs : List Report) (fs : FileSystem) : Prop :=
  ∀ earlier r later, rs = earlier ++ r :: later →
    (r.HoldsIn o now fs ↔ ∀ r' ∈ later, fs.find r'.path ≠ fs.find r.path) ∧
      ∃ last ∈ r :: later, fs.find last.path = fs.find r.path ∧ last.HoldsIn o now fs

/-- Reports of different kinds are not both true of one file. -/
theorem Report.kind_eq_of_holdsIn {r r' : Report} {o : Options} {now : DateTime} {fs : FileSystem}
    (h : r.HoldsIn o now fs) (h' : r'.HoldsIn o now fs) (hfind : fs.find r.path = fs.find r'.path) :
    r.kind = r'.kind := by
  obtain ⟨content, hcontent, hread, -⟩ := h
  obtain ⟨content', hcontent', hread', -⟩ := h'
  have hsame : fs.read r.path = fs.read r'.path := by rw [FileSystem.read, FileSystem.read, hfind]
  rw [hread, hread'] at hsame
  rw [← (Content.kind_of_ofSeed hcontent).1, ← (Content.kind_of_ofSeed hcontent').1]
  exact Content.kind_eq_of_bytes_eq (Except.ok.inj hsame)

theorem exists_last {α : Type} {P : α → Prop} {l : List α} (h : ∃ a ∈ l, P a) :
    ∃ before b after, l = before ++ b :: after ∧ P b ∧ ∀ c ∈ after, ¬ P c := by
  induction l with
  | nil => simp at h
  | cons x rest ih =>
    by_cases hrest : ∃ a ∈ rest, P a
    · obtain ⟨before, b, after, rfl, hb, hafter⟩ := ih hrest
      exact ⟨x :: before, b, after, rfl, hb, hafter⟩
    · obtain ⟨a, ha, hPa⟩ := h
      rcases List.mem_cons.1 ha with rfl | ha
      · exact ⟨[], a, rest, rfl, hPa, fun c hc hPc => hrest ⟨c, hc, hPc⟩⟩
      · exact absurd ⟨a, ha, hPa⟩ hrest

namespace Run

variable {o : Options} {seed : UInt64} {k : Kind} {kinds : List Kind} {s s' : Session} {r : Report}
  {rs earlier later : List Report}

/-- What the report on a fixture of a run says. -/
structure Reported (o : Options) (seed : UInt64) (now : DateTime) (r : Report) : Prop where
  path : r.path = o.outputPath r.kind
  runSeed : r.seed = seed
  bytes : ∃ content, Content.ofSeed o now r.kind seed = .ok content ∧
    r.bytesWritten.toNat = min content.bytes.size (UInt64.size - 1)

theorem reported_fixture (h : fixture o seed k s = (.ok r, s')) : r.kind = k ∧ Reported o seed s.now r := by
  obtain ⟨content, s₁, files, -, hcontent, hwrite, -, rfl, hpath, hseed⟩ := fixture_eq_ok h
  have hstores := content.stores_write (o.outputPath r.kind) s₁.files
  rw [hwrite] at hstores
  exact ⟨rfl, hpath, hseed, content, hcontent, hstores.2.1⟩

theorem reported_fixtures (h : fixtures o seed kinds s = (.ok rs, s')) :
    rs.map Report.kind = kinds ∧ ∀ r ∈ rs, Reported o seed s.now r := by
  induction kinds generalizing s rs with
  | nil =>
    cases h
    exact ⟨rfl, by simp⟩
  | cons k rest ih =>
    obtain ⟨r, s₁, rs', hfirst, hrest, rfl⟩ := fixtures_cons h
    obtain ⟨hkind, hreported⟩ := reported_fixture hfirst
    obtain ⟨hkinds, hothers⟩ := ih hrest
    rw [(written_fixture hfirst).now] at hothers
    exact ⟨by rw [List.map_cons, hkind, hkinds], List.forall_mem_cons.2 ⟨hreported, hothers⟩⟩

/-- The report on a fixture to whose file no later one was written is true. -/
theorem holdsIn_of_no_later (hkinds : kinds.Nodup) (h : fixtures o seed kinds s = (.ok (earlier ++ r :: later), s'))
    (hlog : ∀ l, s'.files.find r.path = .ok l → s.journal.location ≠ some l)
    (hlater : ∀ r' ∈ later, s'.files.find r'.path ≠ s'.files.find r.path) : r.HoldsIn o s.now s'.files := by
  induction kinds generalizing s earlier with
  | nil => simp [fixtures] at h
  | cons k rest ih =>
    obtain ⟨-, hrest⟩ := List.nodup_cons.1 hkinds
    obtain ⟨r₀, s₁, rs', hfirst, hothers, hrs⟩ := fixtures_cons h
    have hwritten := written_fixture hfirst
    cases earlier with
    | cons r₁ earlier =>
      obtain ⟨-, rfl⟩ := List.cons.inj hrs
      rw [← hwritten.now]
      exact ih hrest hothers (by rwa [hwritten.journal])
    | nil =>
      obtain ⟨rfl, rfl⟩ := List.cons.inj hrs
      obtain ⟨rfl, hpath, hseed, content, hcontent, hsize⟩ := reported_fixture hfirst
      obtain ⟨hkinds', hreported⟩ := reported_fixtures hothers
      have hafter := written_fixtures hrest hothers
      obtain ⟨content', hcontent', hread⟩ := hwritten.read_of_no_later hafter (by rwa [← hpath]) fun j hj => by
        rw [← hkinds'] at hj
        obtain ⟨r', hr', rfl⟩ := List.mem_map.1 hj
        rw [← hpath, ← (hreported r' hr').path]
        exact hlater r' hr'
      rw [hcontent] at hcontent'
      cases hcontent'
      exact ⟨content, hseed.symm ▸ hcontent, hpath.symm ▸ hread, hsize⟩

/-- Whatever paths lead to the same file, the last report on a file is true of it. -/
theorem exists_holdsIn (hkinds : kinds.Nodup) (h : fixtures o seed kinds s = (.ok (earlier ++ r :: later), s'))
    (hlog : ∀ l, s'.files.find r.path = .ok l → s.journal.location ≠ some l) :
    ∃ last ∈ r :: later, s'.files.find last.path = s'.files.find r.path ∧ last.HoldsIn o s.now s'.files := by
  have hself : ∃ r' ∈ r :: later, s'.files.find r'.path = s'.files.find r.path := ⟨r, List.mem_cons_self, rfl⟩
  obtain ⟨before, last, after, heq, hlast, hafter⟩ := exists_last hself
  refine ⟨last, by simp [heq], hlast, ?_⟩
  rw [heq, ← List.append_assoc] at h
  refine holdsIn_of_no_later hkinds h (by rwa [hlast]) fun r' hr' => ?_
  rw [hlast]
  exact hafter r' hr'

theorem holdsIn_iff_of_fixtures (hkinds : kinds.Nodup)
    (h : fixtures o seed kinds s = (.ok (earlier ++ r :: later), s'))
    (hlog : ∀ l, s'.files.find r.path = .ok l → s.journal.location ≠ some l) :
    r.HoldsIn o s.now s'.files ↔ ∀ r' ∈ later, s'.files.find r'.path ≠ s'.files.find r.path := by
  constructor
  · intro hr r' hr' hfind
    obtain ⟨a, b, rfl⟩ := List.append_of_mem hr'
    -- the last report on the file is true as well, and its kind is another one
    have hsplit : earlier ++ r :: (a ++ r' :: b) = (earlier ++ r :: a) ++ r' :: b := by simp
    rw [hsplit] at h
    obtain ⟨last, hlast, hsame, hholds⟩ := exists_holdsIn hkinds h (by rwa [hfind])
    have hkind := Report.kind_eq_of_holdsIn hr hholds (hfind.symm.trans hsame.symm)
    rw [← (reported_fixtures h).1, ← hsplit, List.map_append, List.map_cons] at hkinds
    have hnotin := (List.nodup_cons.1 (List.nodup_append.1 hkinds).2.1).1
    rw [hkind] at hnotin
    exact hnotin (List.mem_map_of_mem (List.mem_append_right a hlast))
  · exact holdsIn_of_no_later hkinds h hlog

theorem lastReportsHold_of_fixtures (hkinds : kinds.Nodup) (h : fixtures o seed kinds s = (.ok rs, s'))
    (hlog : ∀ k l, s'.files.find (o.outputPath k) = .ok l → s.journal.location ≠ some l) :
    LastReportsHold o s.now rs s'.files := by
  rintro earlier r later rfl
  have hpath := ((reported_fixtures h).2 r (by simp)).path
  have hlog' : ∀ l, s'.files.find r.path = .ok l → s.journal.location ≠ some l := by
    rw [hpath]
    exact hlog r.kind
  exact ⟨holdsIn_iff_of_fixtures hkinds h hlog', exists_holdsIn hkinds h hlog'⟩

/-- A run of all kinds that succeeds has a report on each. At its end a report is true exactly if no later one
is on the same file, and of the reports on a file the last one is true. A log is not to be one of the files. -/
theorem last_reports_hold (h : all o s = (.ok rs, s'))
    (hlog : ∀ k l, s'.files.find (o.outputPath k) = .ok l → s.journal.location ≠ some l) :
    rs.map Report.kind = Kind.all ∧ (∀ r ∈ rs, r.path = o.outputPath r.kind ∧ r.seed = o.runSeed s) ∧
      LastReportsHold o s.now rs s'.files := by
  unfold all at h
  split at h
  · cases h
  simp only at h
  have htold := Session.told_tell s (.generationStarted (o.runSeed s) Kind.all.length)
  obtain ⟨hkinds, hreported⟩ := reported_fixtures h
  refine ⟨hkinds, fun r hr => ⟨(hreported r hr).path, (hreported r hr).runSeed⟩, ?_⟩
  rw [← htold.now]
  exact lastReportsHold_of_fixtures (by decide) h fun k l hl => by rw [htold.journal]; exact hlog k l hl

/-- The nested document and the lines at one path. -/
theorem last_reports_hold_shared :
    let o : Options := {
      seed := some 1, nested := { keys := 0, out := some (.ofText "x") }
      array := ⟨0, none⟩, ndjson := ⟨0, some (.ofText "x")⟩
      csv := { rows := 0, stop := some (.startOf ⟨daysBeforeYear 2025, by decide, by decide⟩) } }
    let s : Session := {
      files := { entries := [], workDir := [] }, now := .first, freshSeed := 0, durations := fun _ => 0 }
    ∃ rs s', all o s = (.ok rs, s') ∧
      (∀ k l, s'.files.find (o.outputPath k) = .ok l → s.journal.location ≠ some l) ∧
      rs.map Report.kind = Kind.all ∧ LastReportsHold o s.now rs s'.files := by
  intro o s
  have hok : (all o s).1.toBool = true := by decide +kernel
  rcases hrun : all o s with ⟨_ | rs, s'⟩ <;> rw [hrun] at hok
  · cases hok
  have hlog : ∀ k l, s'.files.find (o.outputPath k) = .ok l → s.journal.location ≠ some l := fun _ _ _ h => by cases h
  obtain ⟨hkinds, -, hlast⟩ := last_reports_hold hrun hlog
  exact ⟨rs, s', rfl, hlog, hkinds, hlast⟩

/-- The first report says two bytes, those of an empty document, of a file that is empty in the end. -/
theorem first_report_outdated :
    let o : Options := {
      seed := some 1, nested := { keys := 0, out := some (.ofText "x") }
      array := ⟨0, none⟩, ndjson := ⟨0, some (.ofText "x")⟩
      csv := { rows := 0, stop := some (.startOf ⟨daysBeforeYear 2025, by decide, by decide⟩) } }
    let s : Session := {
      files := { entries := [], workDir := [] }, now := .first, freshSeed := 0, durations := fun _ => 0 }
    ∃ r rs s' content, all o s = (.ok (r :: rs), s') ∧ r.bytesWritten = 2 ∧
      s'.files.read r.path = .ok content ∧ content.size = 0 ∧ ¬ r.HoldsIn o s.now s'.files := by
  intro o s
  have hfirst : ((all o s).1.toOption.bind List.head?).map (fun r =>
      (r.bytesWritten, ((all o s).2.files.read r.path).toOption.map ByteArray.size)) = some (2, some 0) := by
    decide +kernel
  rcases hrun : all o s with ⟨_ | ⟨_ | ⟨r, rs⟩⟩, s'⟩ <;> rw [hrun] at hfirst
  · cases hfirst
  · cases hfirst
  obtain ⟨hbytes, hsize⟩ := Prod.mk.inj (Option.some.inj hfirst)
  simp only at hsize
  rcases hread : s'.files.read r.path with _ | content <;> rw [hread] at hsize
  · cases hsize
  · have hempty : content.size = 0 := Option.some.inj hsize
    refine ⟨r, rs, s', content, rfl, hbytes, hread, hempty, ?_⟩
    rintro ⟨drawn, -, hdrawn, hcount⟩
    rw [hread] at hdrawn
    cases hdrawn
    rw [hbytes, hempty] at hcount
    exact absurd hcount (by decide)

end Run

end Fixtures
