/-
Fixtures that fail. However a fixture ends, it spares every location but its log and the one to which its path
leads. Options that passed their check are not found wanting later, so a run that fails for its options has
written nothing.
-/
import Fixtures.Proofs.FileSystem.Spared
import Fixtures.Proofs.Run.Independence

namespace Fixtures

/-! ## Locations that are spared -/

/-- A step of a run that spares a location: the time and the log are the same. -/
structure Session.Spares (l : Location) (s s' : Session) : Prop where
  now : s'.now = s.now
  journal : s'.journal = s.journal
  files : s.files.Spares l s'.files

namespace Session

variable {s s' s'' : Session} {l : Location}

theorem Spares.refl (l : Location) (s : Session) : Spares l s s := ⟨rfl, rfl, .refl l _⟩

theorem Spares.trans (h : Spares l s s') (h' : Spares l s' s'') : Spares l s s'' :=
  ⟨h'.now.trans h.now, h'.journal.trans h.journal, h.files.trans h'.files⟩

theorem addsTo_tell (s : Session) (e : Event) : s.files.AddsTo s.journal.location (s.tell e).files := by
  rcases s.tell_cases e with heq | ⟨l, taken, files, hlog, happended, heq⟩ <;> rw [heq]
  · exact .refl _ _
  · rw [hlog]
    exact happended.addsTo

theorem spares_tell (hlog : s.journal.location ≠ some l) (e : Event) : Spares l s (s.tell e) :=
  ⟨(told_tell s e).now, (told_tell s e).journal, (addsTo_tell s e).spares hlog⟩

end Session

/-- However a write of a content ends, it changes the file of its path only. -/
theorem Content.writesOnly_write (c : Content) {p : Path} {fs fs' : FileSystem} {r : Except WriteError UInt64}
    (h : c.write p fs = (r, fs')) : fs.WritesOnly p fs' := by
  have hstores := c.stores_write p fs
  rw [h] at hstores
  cases r with
  | error e => exact hstores.2
  | ok bytes => exact hstores.2.2

namespace Run

variable {o : Options} {seed : UInt64} {k : Kind} {kinds : List Kind} {s s' : Session} {l : Location} {e : RunError}

/-- The ways in which a fixture ends: it cannot be drawn, or not be written, or is reported. Only what is told
comes before the draw and after the write. -/
theorem fixture_cases (o : Options) (seed : UInt64) (k : Kind) (s : Session) :
    let told := (s.tell (.generating k seed (o.outputPath k))).tell (o.preparation k)
    (∃ e, Content.ofSeed o s.now k seed = .error e ∧ fixture o seed k s = (.error e, told)) ∨
      ∃ content, Content.ofSeed o s.now k seed = .ok content ∧
        ((∃ e files, content.write (o.outputPath k) told.files = (.error e, files) ∧
            fixture o seed k s = (.error (.write e), { told with files })) ∨
          ∃ bytes files r event, content.write (o.outputPath k) told.files = (.ok bytes, files) ∧
            fixture o seed k s = (.ok r, Session.tell { told with files } event)) := by
  intro told
  have hnow : told.now = s.now := ((s.told_tell _).trans (Session.told_tell _ _)).now
  unfold fixture
  simp only [← hnow]
  split
  · exact .inl ⟨_, by assumption, rfl⟩
  · rename_i content hcontent
    refine .inr ⟨content, hcontent, ?_⟩
    split
    · exact .inl ⟨_, _, by assumption, rfl⟩
    · exact .inr ⟨_, _, _, _, by assumption, rfl⟩

/-- A fixture spares every location that is neither the log nor where its path leads. -/
theorem spares_fixture (seed : UInt64) (hlog : s.journal.location ≠ some l)
    (hpath : (o.outputPath k).target s.files.workDir ≠ l) : s.Spares l (fixture o seed k s).2 := by
  have hfirst := Session.spares_tell hlog (.generating k seed (o.outputPath k))
  have htold := hfirst.trans (Session.spares_tell (by rw [hfirst.journal]; exact hlog) (o.preparation k))
  have hcases := fixture_cases o seed k s
  simp only at hcases
  generalize (s.tell (.generating k seed (o.outputPath k))).tell (o.preparation k) = told at htold hcases
  have hwritten {content : Content} {r : Except WriteError UInt64} {files : FileSystem}
      (h : content.write (o.outputPath k) told.files = (r, files)) : s.Spares l { told with files } := by
    refine ⟨htold.now, htold.journal, htold.files.trans ((content.writesOnly_write h).spares ?_)⟩
    rw [htold.files.workDir]
    exact hpath
  rcases hcases with ⟨e, -, h⟩ | ⟨content, -, ⟨e, files, hwrite, h⟩ | ⟨_, files, _, event, hwrite, h⟩⟩ <;> rw [h]
  · exact htold
  · exact hwritten hwrite
  · have hspares := hwritten hwrite
    exact hspares.trans (Session.spares_tell (by rw [hspares.journal]; exact hlog) event)

theorem spares_fixtures (hlog : s.journal.location ≠ some l)
    (hpaths : ∀ k ∈ kinds, (o.outputPath k).target s.files.workDir ≠ l) : s.Spares l (fixtures o seed kinds s).2 := by
  induction kinds generalizing s with
  | nil => exact .refl l s
  | cons k rest ih =>
    obtain ⟨hpath, hrest⟩ := List.forall_mem_cons.1 hpaths
    have hfirst := spares_fixture seed hlog hpath
    rw [fixtures]
    rcases hrun : fixture o seed k s with ⟨e | r, s₁⟩ <;> rw [hrun] at hfirst
    · exact hfirst
    · have hothers := ih (s := s₁) (by rw [hfirst.journal]; exact hlog) (by rw [hfirst.files.workDir]; exact hrest)
      rcases hrun' : fixtures o seed rest s₁ with ⟨e | rs, s₂⟩ <;> rw [hrun'] at hothers <;>
        simp only [hrun'] <;> exact hfirst.trans hothers

theorem spares_one (hlog : s.journal.location ≠ some l) (hpath : (o.outputPath k).target s.files.workDir ≠ l) :
    s.Spares l (one o k s).2 := by
  unfold one
  cases o.error? s.now with
  | some e => exact .refl l s
  | none => exact spares_fixture _ hlog hpath

theorem spares_all (hlog : s.journal.location ≠ some l)
    (hpaths : ∀ k ∈ Kind.all, (o.outputPath k).target s.files.workDir ≠ l) : s.Spares l (all o s).2 := by
  unfold all
  cases o.error? s.now with
  | some e => exact .refl l s
  | none =>
    have htold := Session.spares_tell hlog (.generationStarted (o.runSeed s) Kind.all.length)
    refine htold.trans (spares_fixtures (by rw [htold.journal]; exact hlog) ?_)
    rw [htold.files.workDir]
    exact hpaths

/-! ## Options that do not pass their check -/

/-- Options that passed their check are not found wanting when a fixture is drawn. -/
theorem fixture_ne_options (seed : UInt64) (k : Kind) (hcheck : o.error? s.now = none) (cause : OptionsError) :
    (fixture o seed k s).1 ≠ .error (.options cause) := by
  obtain ⟨-, -, window, hwindow⟩ := Options.error?_eq_none hcheck
  rcases fixture_cases o seed k s with ⟨e, hdraw, h⟩ | ⟨_, -, ⟨_, _, -, h⟩ | ⟨_, _, _, _, -, h⟩⟩ <;> rw [h]
  · have hcause : ∃ cause, e = .draw cause := by
      unfold Content.ofSeed Content.draw at hdraw
      cases k with
      | csv =>
        simp only [hwindow] at hdraw
        split at hdraw <;> cases hdraw
        exact ⟨_, rfl⟩
      | _ =>
        simp only at hdraw
        split at hdraw <;> cases hdraw
        exact ⟨_, rfl⟩
    obtain ⟨_, rfl⟩ := hcause
    exact fun heq => by cases heq
  · exact fun heq => by cases heq
  · exact fun heq => by cases heq

theorem now_fixture (o : Options) (seed : UInt64) (k : Kind) (s : Session) : (fixture o seed k s).2.now = s.now := by
  have htold := (s.told_tell (.generating k seed (o.outputPath k))).trans (Session.told_tell _ (o.preparation k))
  rcases fixture_cases o seed k s with ⟨e, -, h⟩ | ⟨_, -, ⟨_, files, -, h⟩ | ⟨_, files, _, event, -, h⟩⟩ <;> rw [h]
  · exact htold.now
  · exact htold.now
  · exact (Session.told_tell _ event).now.trans htold.now

theorem fixtures_ne_options (hcheck : o.error? s.now = none) (cause : OptionsError) :
    (fixtures o seed kinds s).1 ≠ .error (.options cause) := by
  induction kinds generalizing s with
  | nil => exact fun heq => by cases heq
  | cons k rest ih =>
    have hfirst := fixture_ne_options seed k hcheck cause
    have hnow := now_fixture o seed k s
    rw [fixtures]
    rcases hrun : fixture o seed k s with ⟨e | r, s₁⟩ <;> rw [hrun] at hfirst hnow
    · exact fun heq => hfirst (by cases heq; rfl)
    · have hothers := ih (s := s₁) (by rw [hnow]; exact hcheck)
      rcases hrun' : fixtures o seed rest s₁ with ⟨e | rs, s₂⟩ <;> rw [hrun'] at hothers <;> simp only [hrun']
      · exact fun heq => hothers (by cases heq; rfl)
      · exact fun heq => by cases heq

theorem one_eq_of_options_error {cause : OptionsError} (h : (one o k s).1 = .error (.options cause)) :
    (one o k s).2 = s := by
  unfold one at h ⊢
  cases hcheck : o.error? s.now with
  | some e => rfl
  | none =>
    rw [hcheck] at h
    exact absurd h (fixture_ne_options _ k hcheck cause)

theorem all_eq_of_options_error {cause : OptionsError} (h : (all o s).1 = .error (.options cause)) :
    (all o s).2 = s := by
  unfold all at h ⊢
  cases hcheck : o.error? s.now with
  | some e => rfl
  | none =>
    rw [hcheck] at h
    have hnow := (s.told_tell (.generationStarted (o.runSeed s) Kind.all.length)).now
    exact absurd h (fixtures_ne_options (by rw [hnow]; exact hcheck) cause)

end Run

end Fixtures
