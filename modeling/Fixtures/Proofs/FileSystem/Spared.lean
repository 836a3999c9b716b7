/-
Locations that are spared. A file that is only added to, and a write to another path, leave what is at a location
as it was; where nothing was, a directory may have been made on the way. So does the attempt to write the file
itself as a whole, if it fails.
-/
import Fixtures.Proofs.FileSystem.Temporary

namespace Fixtures.FileSystem

variable {fs fs' fs'' : FileSystem} {log : Option Location} {l : Location} {p : Path} {data : ByteArray}

/-! ## Files that are added to -/

/-- Nothing is changed but one file, if there is one, that has been made or added to. -/
structure AddsTo (log : Option Location) (fs fs' : FileSystem) : Prop where
  workDir : fs'.workDir = fs.workDir
  node (l : Location) : fs'.node? l = fs.node? l ∨ log = some l ∧ ∃ before added,
    (fs.node? l = some (.file before) ∨ fs.node? l = none ∧ before = .empty) ∧
      fs'.node? l = some (.file (before ++ added))

namespace AddsTo

theorem refl (log : Option Location) (fs : FileSystem) : AddsTo log fs fs := ⟨rfl, fun _ => .inl rfl⟩

theorem trans (h : AddsTo log fs fs') (h' : AddsTo log fs' fs'') : AddsTo log fs fs'' := by
  refine ⟨h'.workDir.trans h.workDir, fun l => ?_⟩
  rcases h'.node l with hsame | ⟨hlog, middle, added', hmiddle, hafter⟩
  · rw [hsame]
    exact h.node l
  · rcases h.node l with hsame | ⟨-, before, added, hbefore, hnode⟩
    · exact .inr ⟨hlog, middle, added', hsame ▸ hmiddle, hafter⟩
    · -- what was added second stands behind what was added first
      rw [hnode] at hmiddle
      rcases hmiddle with heq | ⟨heq, -⟩ <;> cases heq
      exact .inr ⟨hlog, before, added ++ added', hbefore, by rw [hafter, ByteArray.append_assoc]⟩

theorem put (hl : l ≠ []) {before : ByteArray} (added : ByteArray)
    (hbefore : fs.node? l = some (.file before) ∨ fs.node? l = none ∧ before = .empty) :
    AddsTo (some l) fs (fs.put l (.file (before ++ added))) := by
  refine ⟨rfl, fun l' => ?_⟩
  by_cases heq : l' = l
  · subst heq
    exact .inr ⟨rfl, before, added, hbefore, node?_put_self hl⟩
  · exact .inl (node?_put_of_ne heq)

/-- Opening a file that is not to be emptied makes it at most. -/
theorem openFile (h : fs.openFile false p = .ok (l, fs')) : AddsTo (some (p.target fs.workDir)) fs fs' := by
  rw [← openFile_eq_target h]
  unfold FileSystem.openFile at h
  split at h
  · cases h
  split at h
  · cases h
  simp only at h
  split at h
  · cases h
  split at h
  · cases h
  split at h
  · cases h
  · cases h
    exact .refl _ _
  · cases h
    exact .refl _ _
  · rename_i hnone
    cases h
    exact .put (by simp) .empty (.inr ⟨hnone, rfl⟩)

end AddsTo

theorem Appended.addsTo (h : Appended l data fs fs') : AddsTo (some l) fs fs' := by
  refine ⟨h.workDir, fun l' => ?_⟩
  by_cases hl : l' = l
  · subst hl
    rcases h.self with ⟨content, hcontent, hafter⟩ | ⟨-, hsame⟩
    · exact .inr ⟨rfl, content, data, .inl hcontent, hafter⟩
    · exact .inl hsame
  · exact .inl (h.other hl)

/-! ## Locations that are spared -/

/-- What is at a location is as it was, unless nothing was there and a directory has been made. -/
structure Spares (l : Location) (fs fs' : FileSystem) : Prop where
  workDir : fs'.workDir = fs.workDir
  node : fs'.node? l = fs.node? l ∨ fs.node? l = none ∧ fs'.node? l = some .directory

namespace Spares

theorem refl (l : Location) (fs : FileSystem) : Spares l fs fs := ⟨rfl, .inl rfl⟩

theorem trans (h : Spares l fs fs') (h' : Spares l fs' fs'') : Spares l fs fs'' := by
  refine ⟨h'.workDir.trans h.workDir, ?_⟩
  rcases h.node with hsame | ⟨hnone, hdir⟩
  · rw [← hsame]
    exact h'.node
  · rcases h'.node with hsame | ⟨hnone', -⟩
    · exact .inr ⟨hnone, hsame.trans hdir⟩
    · rw [hdir] at hnone'
      cases hnone'

end Spares

theorem AddsTo.spares (h : AddsTo log fs fs') (hlog : log ≠ some l) : Spares l fs fs' := by
  refine ⟨h.workDir, .inl ?_⟩
  rcases h.node l with hsame | ⟨heq, -⟩
  · exact hsame
  · exact absurd heq hlog

theorem WritesOnly.spares (h : WritesOnly p fs fs') (hpath : p.target fs.workDir ≠ l) : Spares l fs fs' := by
  refine ⟨h.workDir, ?_⟩
  rcases h.node l with hsame | ⟨hnone, hdir, -⟩ | ⟨hfind, -⟩
  · exact .inl hsame
  · exact .inr ⟨hnone, hdir⟩
  · rw [← h.workDir] at hpath
    exact absurd (find_eq_target hfind).symm hpath

theorem MadeDirectories.spares {paths : List Path} (h : MadeDirectories paths fs fs') : Spares l fs fs' := by
  refine ⟨h.workDir, ?_⟩
  rcases h.node l with hsame | ⟨hnone, hdir, -⟩
  · exact .inl hsame
  · exact .inr ⟨hnone, hdir⟩

/-- A failure to write a file as a whole spares the file. -/
theorem WroteWhole.spares {e : FileError} (h : WroteWhole p data fs (.error e, fs')) :
    Spares (p.target fs.workDir) fs fs' := by
  cases h with
  | unprepared hmade => exact hmade.spares
  | unmoved hmade hprepared _ _ hwritten =>
    refine hmade.spares.trans ⟨hwritten.workDir, .inl (hwritten.other ?_)⟩
    exact Ne.symm (hprepared.ne_target fs.workDir)

end Fixtures.FileSystem
