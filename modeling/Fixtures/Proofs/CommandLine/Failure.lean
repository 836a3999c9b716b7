/-
Runs from the command line that fail. The options are checked before anything is drawn, so a run that is refused,
whose settings cannot be read or whose options do not pass their check changes nothing but its log. The reports
are filed last, so whatever a run fails at, what is at their path is spared.
-/
import Fixtures.CommandLine.Run
import Fixtures.Proofs.Run.Failure

namespace Fixtures

/-- A run ends before any fixture is drawn: its arguments are refused, its settings cannot be read, or its options
do not pass their check. -/
def Ending.IsRefusal : Ending → Prop
  | .refused _ => True
  | .failed (.settings _) => True
  | .failed (.run (.options _)) => True
  | _ => False

namespace CommandLine

variable {args : List String} {setting : Option String} {a : Arguments} {c : Command} {o : Options}
  {named : Option Path} {filter : Filter} {reports : List Report} {s s' s₁ : Session} {l : Location}

/-! ## The start of a run -/

/-- Where the log of a run lies, if its arguments name one. -/
def logTarget? (args : List String) (workDir : Location) : Option Location :=
  match Arguments.read args with
  | .ok a => a.globals.logFile.map fun p => p.target workDir
  | .error _ => none

/-- The options of a run, and the session in which its log is open, if it comes so far. -/
def start? (a : Arguments) (setting : Option String) (s : Session) : Option (Options × Session) :=
  match Filter.ofSetting? setting with
  | none => none
  | some filter =>
    match openLog a.globals.logFile filter s with
    | .error _ => none
    | .ok s =>
      match Settings.load a.globals.config s.files with
      | .error _ => none
      | .ok o => some (a.command.apply (a.globals.apply o), s)

/-- Opening the log makes its file at most. -/
theorem openLog_spec (h : openLog named filter s = .ok s₁) :
    s.files.AddsTo (named.map fun p => p.target s.files.workDir) s₁.files ∧
      s₁.journal.location = named.map fun p => p.target s.files.workDir := by
  unfold openLog at h
  split at h
  · cases h
    exact ⟨.refl _ _, rfl⟩
  · split at h
    · rename_i l files hopen
      cases h
      exact ⟨.openFile hopen, congrArg some (FileSystem.openFile_eq_target hopen)⟩
    · cases h

/-- The ways in which a run goes: its arguments are refused, nothing is done for want of a filter or a log, the
settings cannot be read once the log is open, or it starts. -/
theorem run_cases (args : List String) (setting : Option String) (s : Session) :
    (∃ e lines, Arguments.read args = .error e ∧ run args setting s = (⟨lines, .refused e⟩, s)) ∨
      ∃ a, Arguments.read args = .ok a ∧
        ((∃ e, run args setting s = (⟨[], .failed e⟩, s) ∧ (e = .filter ∨ ∃ cause, e = .file cause)) ∨
          ∃ filter s₁, openLog a.globals.logFile filter s = .ok s₁ ∧
            ((∃ e, run args setting s = (⟨[], .failed (.settings e)⟩, s₁)) ∨
              ∃ o, start? a setting s = some (o, s₁) ∧ run args setting s = runWith a o s₁)) := by
  unfold run
  cases hargs : Arguments.read args with
  | error e =>
    refine .inl ⟨e, ?_⟩
    cases e <;> exact ⟨_, rfl, rfl⟩
  | ok a =>
    refine .inr ⟨a, rfl, ?_⟩
    simp only [start?]
    cases Filter.ofSetting? setting with
    | none => exact .inl ⟨.filter, rfl, .inl rfl⟩
    | some filter =>
      simp only
      cases hlog : openLog a.globals.logFile filter s with
      | error e => exact .inl ⟨.file e, rfl, .inr ⟨e, rfl⟩⟩
      | ok s₁ =>
        refine .inr ⟨filter, s₁, hlog, ?_⟩
        simp only
        cases Settings.load a.globals.config s₁.files with
        | error e => exact .inl ⟨e, rfl⟩
        | ok o => exact .inr ⟨_, rfl, rfl⟩

/-! ## The rest of a run -/

/-- Where options do not pass their check, nothing has been done. -/
theorem generate_eq_of_options_error {cause : OptionsError} (h : (generate c o s).1 = .error (.options cause)) :
    (generate c o s).2 = s := by
  unfold generate at h ⊢
  cases hkind : c.kind? with
  | none =>
    rw [hkind] at h
    exact Run.all_eq_of_options_error h
  | some k =>
    rw [hkind] at h
    simp only at h ⊢
    rcases hrun : Run.one o k s with ⟨e | r, s'⟩ <;> rw [hrun] at h
    · cases h
      have hsame : (Run.one o k s).2 = s := Run.one_eq_of_options_error (by rw [hrun])
      rwa [hrun] at hsame
    · cases h

theorem spares_generate (hlog : s.journal.location ≠ some l)
    (hpaths : ∀ k ∈ c.kinds, (o.outputPath k).target s.files.workDir ≠ l) : s.Spares l (generate c o s).2 := by
  unfold Command.kinds at hpaths
  unfold generate
  cases hkind : c.kind? with
  | none =>
    rw [hkind] at hpaths
    exact Run.spares_all hlog hpaths
  | some k =>
    rw [hkind] at hpaths
    have hspares := Run.spares_one hlog (hpaths k List.mem_cons_self)
    simp only
    rcases hrun : Run.one o k s with ⟨e | r, s'⟩ <;> rw [hrun] at hspares <;> exact hspares

/-- Reports that cannot be filed are those of fixtures that were written. -/
theorem not_isRefusal_of_fileReports {e : CommandError} (h : (fileReports named reports s).1 = .error e) :
    ¬ (Ending.failed e).IsRefusal := by
  unfold fileReports at h
  split at h
  · cases h
  split at h
  · cases h
    exact id
  split at h <;> cases h
  exact id

/-- Reports that are not filed are not seen at their path. -/
theorem spares_fileReports {p : Path} {e : CommandError} (h : (fileReports (some p) reports s).1 = .error e) :
    s.Spares (p.target s.files.workDir) (fileReports (some p) reports s).2 := by
  unfold fileReports at h ⊢
  simp only at h ⊢
  cases htext : reportText? reports with
  | none => exact .refl _ s
  | some text =>
    have hwrote := FileSystem.wroteWhole p (encodeText text) s.files
    rw [htext] at h
    simp only at h ⊢
    rcases hrun : s.files.writeWhole p (encodeText text) with ⟨cause | _, files⟩ <;> rw [hrun] at h hwrote
    · exact ⟨rfl, rfl, hwrote.spares⟩
    · cases h

/-- A run that is refused once its log is open has told of its start only. -/
theorem addsTo_of_refusal (h : (runWith a o s).1.ending.IsRefusal) :
    s.files.AddsTo s.journal.location (runWith a o s).2.files := by
  have htold := s.addsTo_tell (.runStarted a.command.name)
  unfold runWith at h ⊢
  rcases hrun : generate a.command o (s.tell (.runStarted a.command.name)) with ⟨e | reports, s₁⟩ <;>
    simp only [hrun] at h ⊢
  · cases e with
    | options cause =>
      have herror : (generate a.command o (s.tell (.runStarted a.command.name))).1 = .error (.options cause) := by
        rw [hrun]
      have hsession := generate_eq_of_options_error herror
      rw [hrun] at hsession
      rw [show s₁ = _ from hsession]
      exact htold
    | draw _ => exact h.elim
    | write _ => exact h.elim
  · rcases hfile : fileReports a.globals.report reports s₁ with ⟨e | _, s₂⟩ <;> rw [hfile] at h
    · exact absurd h (not_isRefusal_of_fileReports (by rw [hfile]))
    · exact h.elim

/-- A run that fails with its options known spares the path of its reports. -/
theorem spares_of_failure {p : Path} (hreport : a.globals.report = some p) (h : (runWith a o s).1.ending ≠ .done)
    (hlog : s.journal.location ≠ some (p.target s.files.workDir))
    (hpaths : ∀ k ∈ a.command.kinds, (o.outputPath k).target s.files.workDir ≠ p.target s.files.workDir) :
    s.Spares (p.target s.files.workDir) (runWith a o s).2 := by
  have htold := Session.spares_tell hlog (.runStarted a.command.name)
  have hgenerated := htold.trans (spares_generate (c := a.command) (o := o) (by rw [htold.journal]; exact hlog)
    (by rw [htold.files.workDir]; exact hpaths))
  unfold runWith at h ⊢
  rcases hrun : generate a.command o (s.tell (.runStarted a.command.name)) with ⟨e | reports, s₁⟩ <;>
    rw [hrun] at hgenerated <;> simp only [hrun] at h ⊢
  · exact hgenerated
  rw [hreport] at h ⊢
  rcases hfile : fileReports (some p) reports s₁ with ⟨e | _, s₂⟩ <;> simp only [hfile] at h ⊢
  · have hspares := spares_fileReports (e := e) (by rw [hfile])
    rw [hfile, hgenerated.files.workDir] at hspares
    exact hgenerated.trans hspares
  · exact absurd rfl h

/-- A run that is refused, whose settings cannot be read, or whose options do not pass their check leaves every
file and directory as it was, but for its log, which may have been made or added to. And if a run fails in any way,
what is at the path of its reports is as it was, unless the log or one of the fixtures is written there: at most a
directory has been made where nothing was, on the way to a fixture. -/
theorem failed_run_frame (args : List String) (setting : Option String) (s : Session) :
    let after := run args setting s
    (after.1.ending.IsRefusal → s.files.AddsTo (logTarget? args s.files.workDir) after.2.files) ∧
      ∀ a p, Arguments.read args = .ok a → a.globals.report = some p → after.1.ending ≠ .done →
        logTarget? args s.files.workDir ≠ some (p.target s.files.workDir) →
        (∀ o s₁, start? a setting s = some (o, s₁) → ∀ k ∈ a.command.kinds,
          (o.outputPath k).target s.files.workDir ≠ p.target s.files.workDir) →
        s.files.Spares (p.target s.files.workDir) after.2.files := by
  intro after
  rcases run_cases args setting s with ⟨e, lines, hargs, h⟩ | ⟨a, hargs, h⟩
  · rw [show after = _ from h]
    exact ⟨fun _ => .refl _ _, fun a p ha => by rw [hargs] at ha; cases ha⟩
  have htarget : logTarget? args s.files.workDir = a.globals.logFile.map fun p => p.target s.files.workDir := by
    rw [logTarget?, hargs]
  rw [htarget]
  rcases h with ⟨e, h, he⟩ | ⟨filter, s₁, hlog, h⟩
  · rw [show after = _ from h]
    exact ⟨fun _ => .refl _ _, fun _ p _ _ _ _ _ => .refl _ _⟩
  obtain ⟨hadds, hlocation⟩ := openLog_spec hlog
  rcases h with ⟨e, h⟩ | ⟨o, hstart, h⟩ <;> rw [show after = _ from h]
  · exact ⟨fun _ => hadds, fun _ p _ _ _ hne _ => hadds.spares hne⟩
  constructor
  · intro hrefusal
    have hrest := addsTo_of_refusal hrefusal
    rw [hlocation] at hrest
    exact hadds.trans hrest
  · intro a' p ha hreport hfail hne hpaths
    rw [hargs] at ha
    cases ha
    have hrest := spares_of_failure (o := o) (s := s₁) hreport hfail (by rwa [hlocation, hadds.workDir])
      (by rw [hadds.workDir]; exact hpaths o s₁ hstart)
    rw [hadds.workDir] at hrest
    exact (hadds.spares hne).trans hrest.files

/-- A run whose settings are missing makes its log, and one whose fixture would lie below a file fails with the
reports of an earlier run in place. -/
theorem failed_run_frame_kept_reports :
    let s : Session := {
      files := {
        entries := [(.ofTexts ["f"], .file "x".toUTF8), (.ofTexts ["r"], .file "y".toUTF8)], workDir := [] }
      now := .startOf ⟨daysBeforeYear 2025, by decide, by decide⟩, freshSeed := 0, durations := fun _ => 0 }
    let refused := run ["--log-file", "l", "--config", "c", "all"] none s
    let failed := run ["ndjson", "--count", "0", "--out", "f/x", "--report", "r"] none s
    (refused.1.ending = .failed (.settings (.notFound (.ofText "c"))) ∧
        s.files.AddsTo (some (.ofTexts ["l"])) refused.2.files) ∧
      failed.1.ending = .failed (.run (.write (.file .alreadyExists))) ∧
        s.files.Spares (.ofTexts ["r"]) failed.2.files := by
  intro s refused failed
  have hrefused : refused.1.ending = .failed (.settings (.notFound (.ofText "c"))) := by decide +kernel
  have hfailed : failed.1.ending = .failed (.run (.write (.file .alreadyExists))) := by decide +kernel
  refine ⟨⟨hrefused, ?_⟩, hfailed, ?_⟩
  · obtain ⟨hadds, -⟩ := failed_run_frame ["--log-file", "l", "--config", "c", "all"] none s
    have htarget : logTarget? ["--log-file", "l", "--config", "c", "all"] s.files.workDir = some (.ofTexts ["l"]) := by
      decide +kernel
    rw [htarget] at hadds
    exact hadds (by rw [hrefused]; trivial)
  · have hargs : Arguments.read ["ndjson", "--count", "0", "--out", "f/x", "--report", "r"] =
        .ok ⟨{ report := some (.ofText "r") }, .ndjson (some 0) (some (.ofText "f/x"))⟩ := rfl
    have hlog : logTarget? ["ndjson", "--count", "0", "--out", "f/x", "--report", "r"] s.files.workDir ≠
        some ((Path.ofText "r").target s.files.workDir) := by decide +kernel
    have hpath : (start? ⟨{ report := some (.ofText "r") }, .ndjson (some 0) (some (.ofText "f/x"))⟩ none s).map
        (fun start => start.1.outputPath .ndjson) = some (.ofText "f/x") := by decide +kernel
    have hother : (Path.ofText "f/x").target s.files.workDir ≠ (Path.ofText "r").target s.files.workDir := by
      decide +kernel
    have htarget : (Path.ofText "r").target s.files.workDir = .ofTexts ["r"] := by decide +kernel
    obtain ⟨-, hspares⟩ := failed_run_frame ["ndjson", "--count", "0", "--out", "f/x", "--report", "r"] none s
    have hrun : run ["ndjson", "--count", "0", "--out", "f/x", "--report", "r"] none s = failed := rfl
    clear_value failed s
    rw [← htarget]
    rw [hrun] at hspares
    refine hspares _ (.ofText "r") hargs rfl (by rw [hfailed]; exact nofun) hlog fun o s₁ hstart k hk => ?_
    rw [hstart, Option.map_some, Option.some.injEq] at hpath
    rwa [List.mem_singleton.1 hk, hpath]

end CommandLine

end Fixtures
