/-
Nodes and walks. Putting a node changes no other location, and a walk that leads somewhere leads there
again as long as the directories stay where they are.
-/
import Fixtures.FileSystem.Actions

namespace Fixtures.FileSystem

variable {fs fs' fs'' : FileSystem} {l l' : Location} {node : FileNode}

/-! ## Nodes -/

theorem lookup_putEntry (l l' : Location) (node : FileNode) :
    ∀ entries, (putEntry l node entries).lookup l' = if l' = l then some node else entries.lookup l'
  | [] => by
    rw [putEntry, List.lookup_cons, List.lookup_nil]
    split <;> simp_all
  | (k, old) :: rest => by
    rw [putEntry]
    split
    · rename_i hk
      subst hk
      rw [List.lookup_cons, List.lookup_cons]
      split <;> simp_all
    · rw [List.lookup_cons, List.lookup_cons, lookup_putEntry l l' node rest]
      split <;> simp_all

theorem node?_root (fs : FileSystem) : fs.node? [] = some .directory := if_pos rfl

theorem node?_put (fs : FileSystem) (l : Location) (node : FileNode) (l' : Location) :
    (fs.put l node).node? l' = if l' = [] then some .directory else if l' = l then some node else fs.node? l' := by
  unfold node? put
  split
  · rfl
  · exact lookup_putEntry l l' node fs.entries

theorem node?_put_self (hl : l ≠ []) : (fs.put l node).node? l = some node := by
  rw [node?_put, if_neg hl, if_pos rfl]

theorem node?_put_of_ne (h : l' ≠ l) : (fs.put l node).node? l' = fs.node? l' := by
  rw [node?_put, if_neg h]
  split
  · subst_vars; exact (node?_root fs).symm
  · rfl

theorem lookup_filter_ne (l l' : Location) : ∀ entries : List (Location × FileNode),
    (entries.filter fun e => e.1 != l).lookup l' = if l' = l then none else entries.lookup l'
  | [] => by simp
  | (k, old) :: rest => by
    have ih := lookup_filter_ne l l' rest
    rw [List.filter_cons]
    by_cases hk : k = l
    · subst hk
      rw [if_neg (by simp), ih, List.lookup_cons]
      by_cases hl : l' = k
      · rw [if_pos hl, if_pos hl]
      · rw [if_neg hl, if_neg hl, beq_false_of_ne hl]
    · rw [if_pos (by simp [hk]), List.lookup_cons, ih, List.lookup_cons]
      split <;> simp_all

theorem node?_remove (fs : FileSystem) (l l' : Location) :
    (fs.remove l).node? l' = if l' = [] then some .directory else if l' = l then none else fs.node? l' := by
  unfold node? remove
  split
  · rfl
  · exact lookup_filter_ne l l' fs.entries

theorem node?_remove_of_ne (h : l' ≠ l) : (fs.remove l).node? l' = fs.node? l' := by
  rw [node?_remove, if_neg h]
  split
  · subst_vars; exact (node?_root fs).symm
  · rfl

/-! ## Walks -/

/-- All directories are where they were, and the working directory is the same. -/
structure KeepsDirectories (fs fs' : FileSystem) : Prop where
  workDir : fs'.workDir = fs.workDir
  directory {l : Location} : fs.node? l = some .directory → fs'.node? l = some .directory

theorem KeepsDirectories.refl (fs : FileSystem) : KeepsDirectories fs fs := ⟨rfl, id⟩

theorem KeepsDirectories.trans (h : KeepsDirectories fs fs') (h' : KeepsDirectories fs' fs'') :
    KeepsDirectories fs fs'' :=
  ⟨h'.workDir.trans h.workDir, fun hd => h'.directory (h.directory hd)⟩

theorem KeepsDirectories.put (h : fs.node? l ≠ some .directory ∨ node = .directory) :
    KeepsDirectories fs (fs.put l node) := by
  refine ⟨rfl, fun {l'} hd => ?_⟩
  rw [node?_put]
  split
  · rfl
  · split
    · subst_vars; rw [h.resolve_left (absurd hd)]
    · exact hd

theorem KeepsDirectories.remove (h : fs.node? l ≠ some .directory) : KeepsDirectories fs (fs.remove l) := by
  refine ⟨rfl, fun {l'} hd => ?_⟩
  have hne : l' ≠ l := fun heq => h (heq ▸ hd)
  rw [node?_remove_of_ne hne, hd]

theorem enter_mono {dir dir' : Location} {segment : FileName} (hk : KeepsDirectories fs fs')
    (h : fs.enter dir segment = .ok dir') : fs'.enter dir segment = .ok dir' := by
  unfold enter at *
  split at h
  · rw [if_pos (by assumption)]; exact h
  split at h
  · rw [if_neg (by assumption), if_pos (by assumption)]; exact h
  split at h
  · cases h
  split at h
  · cases h
  · rename_i hnode
    rw [if_neg (by assumption), if_neg (by assumption), if_neg (by assumption), hk.directory hnode]
    exact h
  · cases h

theorem enterAll_mono (hk : KeepsDirectories fs fs') :
    ∀ {segments : List FileName} {dir dir' : Location}, fs.enterAll dir segments = .ok dir' →
      fs'.enterAll dir segments = .ok dir'
  | [], _, _, h => h
  | segment :: rest, dir, dir', h => by
    rw [enterAll] at *
    split at h
    · rename_i henter
      rw [enter_mono hk henter]
      exact enterAll_mono hk h
    · cases h

theorem walk_mono {p : Path} {place : Place} (hk : KeepsDirectories fs fs') (h : fs.walk p = .ok place) :
    fs'.walk p = .ok place := by
  unfold walk at *
  simp only [hk.workDir] at *
  split at h
  · cases h
  split at h
  · cases h
  split at h
  · cases h
  split at h
  · rename_i hdir
    rw [if_neg (by assumption), if_neg (by assumption), if_neg (by assumption), enterAll_mono hk hdir]
    exact h
  · cases h

/-- What lies below the directory that a walk leads to is found, if it is a directory. -/
theorem find_directory {p : Path} {place : Place} {name : FileName} (hwalk : fs.walk p = .ok place)
    (hlast : place.last = some name) (hname : name ≠ .here ∧ name ≠ .up) (hsize : ¬ maxName < name.length)
    (hnode : fs.node? (place.dir ++ [name]) = some .directory) : fs.find p = .ok (place.dir ++ [name]) := by
  unfold find
  rw [hwalk]
  simp only [hlast]
  rw [if_neg hname.1, if_neg hname.2, if_neg hsize, hnode]

/-- What is no directory is found as well, unless separators ask for one. -/
theorem find_file {p : Path} {place : Place} {name : FileName} (hwalk : fs.walk p = .ok place)
    (hlast : place.last = some name) (hname : name ≠ .here ∧ name ≠ .up) (hsize : ¬ maxName < name.length)
    (hslash : ¬ place.slash = true) (hnode : fs.node? (place.dir ++ [name]) = some node) (hfile : node ≠ .directory) :
    fs.find p = .ok (place.dir ++ [name]) := by
  unfold find
  rw [hwalk]
  simp only [hlast]
  rw [if_neg hname.1, if_neg hname.2, if_neg hsize, hnode]
  cases node with
  | directory => exact (hfile rfl).elim
  | file _ | full => exact if_neg hslash

/-- A directory that a path leads to is found there again. -/
theorem find_mono {p : Path} (hk : KeepsDirectories fs fs') (h : fs.find p = .ok l)
    (hl : fs.node? l = some .directory) : fs'.find p = .ok l := by
  unfold find at *
  split at h
  · cases h
  rename_i hwalk
  rw [walk_mono hk hwalk]
  simp only at *
  split at h
  · exact h
  split at h
  · rw [if_pos (by assumption)]; exact h
  split at h
  · rw [if_neg (by assumption), if_pos (by assumption)]; exact h
  split at h
  · cases h
  rw [if_neg (by assumption), if_neg (by assumption), if_neg (by assumption)]
  split at h
  · cases h
  · rename_i hnode
    rw [hk.directory hnode]
    exact h
  · -- a file is no directory, so this is not where the path led
    rename_i node hfile hnode
    split at h <;> cases h
    rw [hl] at hnode
    cases hnode
    exact (hfile rfl).elim

/-! ## Reading -/

theorem read_file {p : Path} {content : ByteArray} (hfind : fs.find p = .ok l)
    (hnode : fs.node? l = some (.file content)) : fs.read p = .ok content := by
  unfold read
  rw [hfind]
  simp only [hnode]

theorem read_full {p : Path} (hfind : fs.find p = .ok l) (hnode : fs.node? l = some .full) :
    fs.read p = .ok .empty := by
  unfold read
  rw [hfind]
  simp only [hnode]

end Fixtures.FileSystem
