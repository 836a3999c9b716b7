/-
Trees. Everything in a file system is in a directory, so what a path leads to is there, and a path that never goes
up can be walked wherever there is something at its end. The paths above such a path lead to other locations.
-/
import Fixtures.Proofs.FileSystem.Location

namespace Fixtures.FileSystem

variable {fs fs' : FileSystem} {p q : Path} {l dir dir' : Location} {segment : FileName}
  {segments names : List FileName}

/-! ## Trees -/

/-- The working directory is there, and what is there is in a directory. -/
structure IsTree (fs : FileSystem) : Prop where
  workDir : fs.node? fs.workDir = some .directory
  directory {l : Location} {name : FileName} {node : FileNode} : fs.node? (l ++ [name]) = some node →
    fs.node? l = some .directory

namespace IsTree

theorem directory_of_append (h : fs.IsTree) (hnames : names ≠ []) (hnode : fs.node? (l ++ names) = some node) :
    fs.node? l = some .directory := by
  induction names generalizing l with
  | nil => exact absurd rfl hnames
  | cons name rest ih =>
    have hl : l ++ name :: rest = l ++ [name] ++ rest := by simp
    rw [hl] at hnode
    by_cases hrest : rest = []
    · rw [hrest, List.append_nil] at hnode
      exact h.directory hnode
    · exact h.directory (ih hrest hnode)

theorem dropLast (h : fs.IsTree) (hl : fs.node? l = some .directory) : fs.node? l.dropLast = some .directory := by
  rcases List.eq_nil_or_concat l with rfl | ⟨dir, name, rfl⟩
  · exact hl
  · rw [List.concat_eq_append] at hl ⊢
    rw [List.dropLast_concat]
    exact h.directory hl

theorem origin (h : fs.IsTree) (p : Path) : fs.node? (p.origin fs.workDir) = some .directory := by
  unfold Path.origin
  split
  · exact node?_root fs
  · exact h.workDir

/-- What a walk enters are directories. -/
theorem enterAll (h : fs.IsTree) (hdir : fs.node? dir = some .directory)
    (henter : fs.enterAll dir segments = .ok dir') : fs.node? dir' = some .directory := by
  induction segments generalizing dir with
  | nil =>
    cases henter
    exact hdir
  | cons segment rest ih =>
    rw [FileSystem.enterAll] at henter
    split at henter
    · rename_i next hnext
      refine ih ?_ henter
      unfold enter at hnext
      split at hnext
      · cases hnext
        exact hdir
      split at hnext
      · cases hnext
        exact h.dropLast hdir
      split at hnext
      · cases hnext
      split at hnext <;> cases hnext
      assumption
    · cases henter

end IsTree

/-- What a path leads to: the directory in which a walk looks, the one above it, or what is there under the last
name. Which of them it is depends on the walk, and on what is there. -/
theorem find_spec (h : fs.find p = .ok l) : ∃ place, fs.walk p = .ok place ∧
    (l = place.dir ∨ (place.last = some .up ∧ l = place.dir.dropLast) ∨
      ∃ name node, l = place.dir ++ [name] ∧ fs.node? l = some node) ∧
    ∀ {fs' : FileSystem}, fs'.walk p = .ok place → fs'.node? l = fs.node? l → fs'.find p = .ok l := by
  unfold find at h
  split at h
  · cases h
  rename_i place hwalk
  refine ⟨place, hwalk, ?_⟩
  split at h
  · rename_i hlast
    cases h
    refine ⟨.inl rfl, fun hwalk' _ => ?_⟩
    simp only [find, hwalk', hlast]
  rename_i name hlast
  split at h
  · rename_i hdot
    cases h
    refine ⟨.inl rfl, fun hwalk' _ => ?_⟩
    simp only [find, hwalk', hlast]
    rw [if_pos hdot]
  rename_i hdot
  split at h
  · rename_i hup
    cases h
    refine ⟨.inr (.inl ⟨hup ▸ hlast, rfl⟩), fun hwalk' _ => ?_⟩
    simp only [find, hwalk', hlast]
    rw [if_neg hdot, if_pos hup]
  rename_i hup
  split at h
  · cases h
  rename_i hsize
  split at h
  · cases h
  · rename_i hnode
    cases h
    refine ⟨.inr (.inr ⟨name, .directory, rfl, hnode⟩), fun hwalk' hsame => ?_⟩
    exact find_directory hwalk' hlast ⟨hdot, hup⟩ hsize (hsame.trans hnode)
  · rename_i node hfile hnode
    split at h
    · cases h
    · rename_i hslash
      cases h
      refine ⟨.inr (.inr ⟨name, node, rfl, hnode⟩), fun hwalk' hsame => ?_⟩
      exact find_file hwalk' hlast ⟨hdot, hup⟩ hsize hslash (hsame.trans hnode) hfile

/-- Every path that leads somewhere leads to something. -/
theorem IsTree.node_of_find (h : fs.IsTree) (hfind : fs.find p = .ok l) : ∃ node, fs.node? l = some node := by
  obtain ⟨place, hwalk, hplace, -⟩ := find_spec hfind
  have hdir := h.enterAll (h.origin p) (walk_spec hwalk).1
  rcases hplace with rfl | ⟨-, rfl⟩ | ⟨name, node, -, hnode⟩
  · exact ⟨_, hdir⟩
  · exact ⟨_, h.dropLast hdir⟩
  · exact ⟨node, hnode⟩

/-! ## Paths without a way up -/

theorem enter_of_down (hup : segment ≠ .up) (h : fs'.enter dir segment = .ok dir')
    (hdir : fs.node? dir' = some .directory) : fs.enter dir segment = .ok dir' := by
  unfold enter at h ⊢
  split at h
  · rw [if_pos (by assumption)]
    exact h
  split at h
  · cases h
  split at h <;> cases h
  rw [if_neg (by assumption), if_neg hup, if_neg (by assumption), hdir]

/-- A walk that only goes down can be done in every tree that has the directory to which it leads. -/
theorem IsTree.enterAll_of_down (h : fs.IsTree) (hup : .up ∉ segments) (henter : fs'.enterAll dir segments = .ok dir')
    (hdir : fs.node? dir' = some .directory) : fs.enterAll dir segments = .ok dir' := by
  induction segments generalizing dir with
  | nil => exact henter
  | cons segment rest ih =>
    rw [List.mem_cons, not_or] at hup
    rw [FileSystem.enterAll] at henter ⊢
    split at henter
    · rename_i next hnext
      have htarget := enterAll_eq henter
      rw [Path.foldl_follow fun hmem => hup.2 (List.mem_filter.1 hmem).1] at htarget
      have hnode : fs.node? next = some .directory := by
        by_cases hrest : rest.filter (· ≠ .here) = []
        · rw [hrest, List.append_nil] at htarget
          exact htarget ▸ hdir
        · exact h.directory_of_append hrest (htarget ▸ hdir)
      rw [enter_of_down (Ne.symm hup.1) hnext hnode]
      exact ih hup.2 henter
    · cases henter

/-- The directory to which a walk only goes down is there, unless the walk does not leave its start. -/
theorem directory_of_down (hup : .up ∉ segments) (henter : fs.enterAll dir segments = .ok dir') :
    dir' = dir ∨ fs.node? dir' = some .directory := by
  induction segments generalizing dir with
  | nil =>
    cases henter
    exact .inl rfl
  | cons segment rest ih =>
    rw [List.mem_cons, not_or] at hup
    rw [FileSystem.enterAll] at henter
    split at henter
    · rename_i next hnext
      have hfirst : next = dir ∨ fs.node? next = some .directory := by
        unfold enter at hnext
        split at hnext
        · cases hnext
          exact .inl rfl
        rw [if_neg (Ne.symm hup.1)] at hnext
        split at hnext
        · cases hnext
        split at hnext <;> cases hnext
        exact .inr (by assumption)
      rcases ih hup.2 henter with rfl | hdir
      · exact hfirst
      · exact .inr hdir
    · cases henter

/-- A path without a way up leads somewhere in a tree if it does so in another file system, and what is there is
the same. -/
theorem IsTree.find_of_down (h : fs.IsTree) (hworkDir : fs'.workDir = fs.workDir) (hup : .up ∉ p.parts)
    (hfind : fs'.find p = .ok l) (hnode : fs'.node? l = fs.node? l) : fs.find p = .ok l := by
  have hup' : .up ∉ p.segments := by
    intro hmem
    rw [← Path.filter_segments] at hup
    exact hup (List.mem_filter.2 ⟨hmem, by decide⟩)
  obtain ⟨place, hwalk, hplace, hagain⟩ := find_spec hfind
  obtain ⟨henter, hlast, hwalks⟩ := walk_spec hwalk
  have hup'' : .up ∉ p.segments.dropLast := fun hmem => hup' (List.dropLast_subset _ hmem)
  have hdir : fs.node? place.dir = some .directory := by
    rcases hplace with rfl | ⟨hname, -⟩ | ⟨name, node, rfl, hname⟩
    · rcases directory_of_down hup'' henter with heq | hdir
      · rw [heq, hworkDir]
        exact h.origin p
      · rw [← hnode, hdir]
    · rw [hlast] at hname
      exact absurd (List.mem_of_getLast? hname) hup'
    · exact h.directory (hnode ▸ hname)
  have henter' : fs.enterAll (p.origin fs'.workDir) p.segments.dropLast = .ok place.dir :=
    h.enterAll_of_down hup'' henter hdir
  exact hagain (hwalks hworkDir.symm henter') hnode.symm

/-- The paths above one that does not go up lead to other locations. -/
theorem find_ne_of_mem_above (hup : .up ∉ p.parts) (hq : q ∈ p.above) (hfind : fs.find q = .ok l) :
    l ≠ p.target fs.workDir := by
  obtain ⟨horigin, names, hnames, hparts⟩ := Path.below_of_mem_above hq
  have hup' : .up ∉ q.parts := fun hmem => hup (hparts ▸ List.mem_append_left names hmem)
  rw [find_eq_target hfind, Path.target_eq hup', Path.target_eq hup, horigin, hparts]
  simpa using hnames.symm

end Fixtures.FileSystem
