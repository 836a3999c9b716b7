/-
What actions leave besides their outcome. Making directories keeps every node and adds directories only
where the paths lead; opening a file touches its location alone.
-/
import Fixtures.Proofs.FileSystem.Walk

namespace Fixtures

/-- The directories above a path, as they are written, the nearest first. -/
def Path.above (p : Path) : List Path :=
  match p.parent? with
  | some dir => if dir.isEmpty then [] else dir :: dir.stages.tail
  | none => []

namespace FileSystem

variable {fs fs' fs'' : FileSystem} {l : Location} {p : Path} {paths paths' : List Path}

/-! ## Directories -/

/-- All nodes are as they were, and what is new are directories to which some of the paths lead. -/
structure MadeDirectories (paths : List Path) (fs fs' : FileSystem) : Prop where
  workDir : fs'.workDir = fs.workDir
  /-- What can go wrong later is what could go wrong, but for what has come to pass. -/
  hitches : fs'.hitches <:+ fs.hitches
  node (l : Location) : fs'.node? l = fs.node? l ∨
    fs.node? l = none ∧ fs'.node? l = some .directory ∧ ∃ q ∈ paths, fs'.find q = .ok l

namespace MadeDirectories

theorem refl (paths : List Path) (fs : FileSystem) : MadeDirectories paths fs fs :=
  ⟨rfl, List.suffix_rfl, fun _ => .inl rfl⟩

theorem mono (hsub : ∀ q ∈ paths, q ∈ paths') (h : MadeDirectories paths fs fs') : MadeDirectories paths' fs fs' := by
  refine ⟨h.workDir, h.hitches, fun l => ?_⟩
  rcases h.node l with hl | ⟨hnone, hdir, q, hq, hfind⟩
  · exact .inl hl
  · exact .inr ⟨hnone, hdir, q, hsub q hq, hfind⟩

/-- A node that was there is there as it was. -/
theorem node_of_some {node : FileNode} (h : MadeDirectories paths fs fs') (hl : fs.node? l = some node) :
    fs'.node? l = some node := by
  rcases h.node l with hsame | ⟨hnone, -⟩
  · rw [hsame, hl]
  · rw [hnone] at hl; cases hl

theorem keepsDirectories (h : MadeDirectories paths fs fs') : KeepsDirectories fs fs' := ⟨h.workDir, h.node_of_some⟩

theorem trans (h : MadeDirectories paths fs fs') (h' : MadeDirectories paths fs' fs'') :
    MadeDirectories paths fs fs'' := by
  refine ⟨h'.workDir.trans h.workDir, h'.hitches.trans h.hitches, fun l => ?_⟩
  rcases h.node l with hl | ⟨hnone, hdir, q, hq, hfind⟩
  · rw [← hl]; exact h'.node l
  · exact .inr ⟨hnone, h'.node_of_some hdir, q, hq, find_mono h'.keepsDirectories hfind hdir⟩

end MadeDirectories

theorem madeDirectories_makeDirectory (h : fs.makeDirectory p = .ok fs') : MadeDirectories [p] fs fs' := by
  unfold makeDirectory at h
  split at h
  · cases h
  rename_i place hwalk
  split at h
  · cases h
  rename_i name hlast
  split at h
  · cases h
  rename_i hname
  split at h
  · cases h
  rename_i hsize
  split at h
  · cases h
  rename_i hnone
  cases h
  refine ⟨rfl, List.suffix_rfl, fun l => ?_⟩
  by_cases hl : l = place.dir ++ [name]
  · subst hl
    have hself : (fs.put (place.dir ++ [name]) .directory).node? (place.dir ++ [name]) = some .directory :=
      node?_put_self (by simp)
    refine .inr ⟨hnone, hself, p, List.mem_singleton_self p, ?_⟩
    exact find_directory (walk_mono (.put (.inr rfl)) hwalk) hlast (not_or.1 hname) hsize hself
  · exact .inl (node?_put_of_ne hl)

theorem madeDirectories_ensureDirectory (h : fs.ensureDirectory p = .ok fs') : MadeDirectories [p] fs fs' := by
  unfold ensureDirectory at h
  split at h
  · rename_i hmake
    cases h
    exact madeDirectories_makeDirectory hmake
  · split at h <;> cases h
    exact .refl _ _

theorem madeDirectories_makeAfter {above : FileSystem → Except FileError Unit × FileSystem} (p : Path) (fs : FileSystem)
    (habove : ∀ fs, MadeDirectories paths fs (above fs).2) :
    MadeDirectories (p :: paths) fs (makeAfter above p fs).2 := by
  have hfirst : ∀ q ∈ [p], q ∈ p :: paths := by simp
  have hrest : ∀ q ∈ paths, q ∈ p :: paths := fun _ => List.mem_cons_of_mem p
  -- a first try, the directories above, and a second try: each makes at most what the paths name
  have hmade := habove fs
  unfold makeAfter
  split
  · exact (madeDirectories_ensureDirectory ‹_›).mono hfirst
  · rcases ha : above fs with ⟨e | _, fs'⟩ <;> rw [ha] at hmade
    · exact hmade.mono hrest
    · simp only
      split
      · exact (hmade.mono hrest).trans ((madeDirectories_ensureDirectory ‹_›).mono hfirst)
      · exact hmade.mono hrest
  · exact .refl _ _

theorem madeDirectories_makeNested : ∀ (paths : List Path) (fs : FileSystem),
    MadeDirectories paths fs (makeNested paths fs).2
  | [], fs => .refl [] fs
  | p :: paths, fs => madeDirectories_makeAfter p fs (madeDirectories_makeNested paths)

theorem madeDirectories_makeDirectories (p : Path) (fs : FileSystem) :
    MadeDirectories (p :: p.stages.tail) fs (fs.makeDirectories p).2 := by
  unfold makeDirectories
  split
  · exact .refl _ fs
  · exact madeDirectories_makeAfter p fs (madeDirectories_makeNested p.stages.tail)

/-- Whatever comes of it, making the directories above a path keeps every node and makes nothing else. -/
theorem madeDirectories_makeParents (p : Path) (fs : FileSystem) :
    MadeDirectories p.above fs (fs.makeParents p).2 := by
  unfold makeParents Path.above
  cases p.parent? with
  | none => exact .refl _ fs
  | some dir =>
    simp only
    split
    · exact .refl _ fs
    · exact madeDirectories_makeDirectories dir fs

/-! ## Files -/

/-- A file that was opened to be emptied: where it lies, and that its path leads there as long as the
directories stay where they are. -/
theorem openFile_spec (h : fs.openFile true p = .ok (l, fs')) :
    l ≠ [] ∧
      (fs.node? l = some .full ∧ fs' = fs ∨
        (∀ node, fs.node? l = some node → ∃ content, node = .file content) ∧ fs' = fs.put l (.file .empty)) ∧
      ∀ {fs'' : FileSystem} {node : FileNode}, KeepsDirectories fs fs'' → fs''.node? l = some node →
        node ≠ .directory → fs''.find p = .ok l := by
  unfold openFile at h
  split at h
  · cases h
  rename_i place hwalk
  split at h
  · cases h
  rename_i name hlast
  simp only at h
  split at h
  · cases h
  rename_i hname
  simp only [not_or] at hname
  split at h
  · cases h
  rename_i hsize
  have hfind : ∀ {fs'' : FileSystem} {node : FileNode}, KeepsDirectories fs fs'' →
      fs''.node? (place.dir ++ [name]) = some node → node ≠ .directory →
      fs''.find p = .ok (place.dir ++ [name]) := by
    intro fs'' node hkeeps hnode hfile
    exact find_file (walk_mono hkeeps hwalk) hlast hname.2 hsize hname.1 hnode hfile
  split at h
  · cases h
  all_goals rename_i hnode; cases h; refine ⟨by simp, ?_, hfind⟩
  · exact .inl ⟨hnode, rfl⟩
  · exact .inr ⟨fun node hn => by rw [hnode] at hn; cases hn; exact ⟨_, rfl⟩, rfl⟩
  · exact .inr ⟨fun node hn => (by rw [hnode] at hn; cases hn), rfl⟩

end FileSystem

end Fixtures
