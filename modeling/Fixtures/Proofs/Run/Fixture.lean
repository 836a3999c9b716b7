/-
Runs of one kind, without a log. With options that pass their check and leave nothing open, a run ends in
a report or in a failure of a file, unless what it draws is too large to be addressed. The report is true
of the file, the file holds exactly the text of what the seed of the kind draws, and everything else is
as it was.
-/
import Fixtures.Proofs.Run.Content
import Fixtures.Run.Basic

namespace Fixtures

namespace Session

theorem tell_of_no_log {s : Session} (h : s.journal.location = none) (e : Event) : s.tell e = s := by
  unfold tell
  rw [h]

end Session

namespace Run

/-- What a run of a kind with a seed promises: of its report, of a failure, of the files besides, and of
the nodes that were there if its path cannot be opened. -/
structure Delivers (o : Options) (k : Kind) (seed : UInt64) (s : Session) (result : Except RunError Report × Session) :
    Prop where
  report {r : Report} : result.1 = .ok r →
    r.kind = k ∧ r.path = o.outputPath k ∧ r.seed = seed ∧ r.records = o.records k ∧
      ∃ content, Content.ofSeed o s.now k seed = .ok content ∧
        result.2.files.read (o.outputPath k) = .ok content.bytes ∧
        r.bytesWritten.toNat = min content.bytes.size (UInt64.size - 1)
  failure {e : RunError} : result.1 = .error e →
    (∃ cause, e = .write cause ∧ cause.isIo = true) ∨ (e = .draw .tooLarge ∧ ¬ o.Addressable k ∧ result.2 = s)
  frame : s.files.WritesOnly (o.outputPath k) result.2.files
  unopened {e : FileError} {fs : FileSystem} : FileOutput.create (o.outputPath k) s.files = (.error e, fs) →
    (∃ e, result.1 = .error e) ∧ ∀ l node, s.files.node? l = some node → result.2.files.node? l = some node

variable {o : Options} {s : Session}

/-- A run without a log draws the content, writes it, and gives its report. -/
theorem fixture_eq (hlog : s.journal.location = none) (seed : UInt64) (k : Kind) :
    fixture o seed k s =
      match Content.ofSeed o s.now k seed with
      | .error e => (.error e, s)
      | .ok content =>
        match content.write (o.outputPath k) s.files with
        | (.error e, files) => (.error (.write e), { s with files := files })
        | (.ok bytes, files) =>
          (.ok ⟨k, o.outputPath k, seed, .ofNat content.records, bytes, s.durations k⟩, { s with files := files }) := by
  unfold fixture
  simp only [Session.tell_of_no_log hlog]
  rcases Content.ofSeed o s.now k seed with e | content
  · rfl
  · simp only
    rcases content.write (o.outputPath k) s.files with ⟨e | bytes, files⟩
    · rfl
    · have htold := Session.tell_of_no_log (s := { s with files := files }) hlog
      simp only [htold]

theorem delivers_fixture (hlog : s.journal.location = none) (hcheck : o.error? s.now = none)
    (hleap : (o.csv.stop.getD s.now).isLeap = false) (seed : UInt64) (k : Kind) :
    Delivers o k seed s (fixture o seed k s) := by
  have hdrawn : Content.Drawn o k (Content.ofSeed o s.now k seed) := Content.draw_spec hcheck hleap k _
  rw [fixture_eq hlog]
  cases hcontent : Content.ofSeed o s.now k seed with
  | error e =>
    rw [hcontent] at hdrawn
    obtain ⟨rfl, hlarge⟩ := hdrawn
    exact {
      report := fun h => by cases h
      failure := fun h => by cases h; exact .inr ⟨rfl, hlarge, rfl⟩
      frame := .refl _ _
      unopened := fun _ => ⟨⟨_, rfl⟩, fun _ _ h => h⟩ }
  | ok content =>
    rw [hcontent] at hdrawn
    -- a write that ended in any way is one of those that `Stores` describes
    have hstores := content.stores_write (o.outputPath k) s.files
    have hunopened {e : FileError} {fs : FileSystem}
        (h : FileOutput.create (o.outputPath k) s.files = (.error e, fs)) :=
      And.intro (content.write_unopened h) (FileOutput.create_error h)
    simp only
    rcases hwrite : content.write (o.outputPath k) s.files with ⟨e | bytes, files⟩ <;> rw [hwrite] at hstores hunopened
    · exact {
        report := fun h => by cases h
        failure := fun h => by cases h; exact .inl ⟨e, rfl, hstores.1⟩
        frame := hstores.2
        unopened := fun h => by
          obtain ⟨heq, hmade⟩ := hunopened h
          cases heq
          exact ⟨⟨_, rfl⟩, fun _ _ hnode => hmade.node_of_some hnode⟩ }
    · exact {
        report := fun h => by
          cases h
          refine ⟨rfl, rfl, rfl, ?_, content, hcontent, hstores.1, hstores.2.1⟩
          simp only
          rw [show content.records = (o.records k).toNat from hdrawn, UInt64.ofNat_toNat]
        failure := fun h => by cases h
        frame := hstores.2.2
        unopened := fun h => by cases (hunopened h).1 }

theorem one_eq_fixture {seed : UInt64} (hcheck : o.error? s.now = none) (hseed : o.seed = some seed) (k : Kind) :
    one o k s = fixture o seed k s := by
  unfold one Options.runSeed
  rw [hcheck, hseed]
  rfl

theorem delivers_one_of_no_log {seed : UInt64} {stop : DateTime} (hlog : s.journal.location = none)
    (hcheck : o.error? s.now = none) (hseed : o.seed = some seed) (hstop : o.csv.stop = some stop)
    (hleap : stop.isLeap = false) (k : Kind) : Delivers o k seed s (one o k s) := by
  rw [one_eq_fixture hcheck hseed]
  exact delivers_fixture hlog hcheck (by rw [hstop]; exact hleap) seed k

/-- A run of any kind delivers what it promises, on every file system, if the options pass their check,
have a seed, and end the ledger rows outside leap seconds. -/
theorem delivers_one {now stop : DateTime} {seed : UInt64} (hcheck : o.error? now = none)
    (hseed : o.seed = some seed) (hstop : o.csv.stop = some stop) (hleap : stop.isLeap = false) (k : Kind)
    (files : FileSystem) (freshSeed : UInt64) (durations : Kind → UInt64) :
    let s : Session := { files, now, freshSeed, durations }
    Delivers o k seed s (one o k s) := by
  intro s
  have hlog : s.journal.location = none := rfl
  have hnow : o.error? s.now = none := hcheck
  exact delivers_one_of_no_log hlog hnow hseed hstop hleap k

/-- The ledger rows of the standard options, with a seed and an end. -/
theorem delivers_one_ledger :
    let o : Options := {
      seed := some 42, csv := { stop := some (.startOf ⟨daysBeforeYear 2025, by decide, by decide⟩) } }
    let s : Session := {
      files := { entries := [], workDir := [] }, now := .first, freshSeed := 0, durations := fun _ => 0 }
    o.error? s.now = none ∧ Delivers o .csv 42 s (one o .csv s) := by
  intro o s
  have hcheck : o.error? DateTime.first = none := by unfold o; decide +kernel
  exact ⟨hcheck, delivers_one hcheck rfl rfl rfl .csv { entries := [], workDir := [] } 0 fun _ => 0⟩

/-- Options that pass their check and ask for more records than a list can hold: no file is tried, though
the path, below a file, could not be opened. -/
theorem one_not_addressed :
    let o : Options := {
      seed := some 1
      ndjson := ⟨0xffffffffffffffff, some (.ofText "f/x")⟩
      csv := { stop := some (.startOf ⟨daysBeforeYear 2025, by decide, by decide⟩) } }
    let s : Session := {
      files := { entries := [(.ofTexts ["f"], .file "x".toUTF8)], workDir := [] }
      now := .first, freshSeed := 0, durations := fun _ => 0 }
    o.error? s.now = none ∧ one o .ndjson s = (.error (.draw .tooLarge), s) := by
  intro o s
  have hcheck : o.error? s.now = none := by unfold o s; decide +kernel
  have hcontent : Content.ofSeed o s.now .ndjson 1 = .error (.draw .tooLarge) := by
    unfold Content.ofSeed Content.draw PersonRecord.drawList
    simp only
    rw [Draw.run_list_of_not_holds (by unfold o; decide)]
  refine ⟨hcheck, ?_⟩
  unfold one
  rw [hcheck]
  simp only
  rw [fixture_eq rfl, show o.runSeed s = 1 from rfl, hcontent]

end Run

end Fixtures
