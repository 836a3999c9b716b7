/-
What stays where it is. When nodes only change their content, every path still leads where it led, and a
file whose node is the same is read as before. Writing to a path and adding to a file are such changes.
-/
import Fixtures.Proofs.Output.File

namespace Fixtures.FileSystem

variable {fs fs' fs'' : FileSystem} {p : Path} {l : Location} {node : FileNode} {data content : ByteArray}

/-! ## Nodes that stay -/

/-- Every node is still there, a directory as a directory and any other one as one that is none. -/
structure KeepsNodes (fs fs' : FileSystem) : Prop where
  workDir : fs'.workDir = fs.workDir
  hitches : fs'.hitches <:+ fs.hitches
  node {l : Location} {node : FileNode} : fs.node? l = some node →
    ∃ node', fs'.node? l = some node' ∧ node'.isDirectory = node.isDirectory

namespace KeepsNodes

theorem refl (fs : FileSystem) : KeepsNodes fs fs :=
  ⟨rfl, List.suffix_rfl, fun h => ⟨_, h, rfl⟩⟩

theorem trans (h : KeepsNodes fs fs') (h' : KeepsNodes fs' fs'') : KeepsNodes fs fs'' := by
  refine ⟨h'.workDir.trans h.workDir, h'.hitches.trans h.hitches, fun hnode => ?_⟩
  obtain ⟨_, hnode', heq⟩ := h.node hnode
  obtain ⟨node'', hnode'', heq'⟩ := h'.node hnode'
  exact ⟨node'', hnode'', heq'.trans heq⟩

theorem keepsDirectories (h : KeepsNodes fs fs') : KeepsDirectories fs fs' := by
  refine ⟨h.workDir, fun hdir => ?_⟩
  obtain ⟨node', hnode', heq⟩ := h.node hdir
  cases node' with
  | directory => exact hnode'
  | file _ => cases heq
  | full => cases heq

end KeepsNodes

/-- A path leads to a node as long as the nodes stay. -/
theorem find_of_keepsNodes (hk : KeepsNodes fs fs') (h : fs.find p = .ok l) (hl : fs.node? l = some node) :
    fs'.find p = .ok l := by
  by_cases hdir : node = .directory
  · subst hdir
    exact find_mono hk.keepsDirectories h hl
  unfold find at *
  split at h
  · cases h
  rename_i hwalk
  rw [walk_mono hk.keepsDirectories hwalk]
  simp only at *
  split at h
  · exact h
  split at h
  · rw [if_pos (by assumption)]; exact h
  split at h
  · rw [if_neg (by assumption), if_pos (by assumption)]; exact h
  split at h
  · cases h
  rw [if_neg (by assumption), if_neg (by assumption), if_neg (by assumption)]
  split at h
  · cases h
  · rename_i hnode
    cases h
    rw [hnode] at hl
    cases hl
    exact (hdir rfl).elim
  · rename_i other hother hnode
    obtain ⟨node', hnode', heq⟩ := hk.node hnode
    rw [hnode']
    cases node' with
    | directory =>
      cases other with
      | directory => exact (hother rfl).elim
      | file _ => cases heq
      | full => cases heq
    | file _ => exact h
    | full => exact h

theorem read_eq_ok (h : fs.read p = .ok content) : ∃ l node, fs.find p = .ok l ∧ fs.node? l = some node ∧
    ∀ {fs' : FileSystem}, fs'.find p = .ok l → fs'.node? l = some node → fs'.read p = .ok content := by
  unfold read at h
  split at h
  · cases h
  rename_i l hfind
  split at h
  · rename_i hnode
    cases h
    exact ⟨l, _, hfind, hnode, fun hfind' hnode' => read_file hfind' hnode'⟩
  · rename_i hnode
    cases h
    exact ⟨l, _, hfind, hnode, fun hfind' hnode' => read_full hfind' hnode'⟩
  · cases h

/-- What was read is read again, if its node is the same. -/
theorem read_of_keepsNodes (hk : KeepsNodes fs fs') (h : fs.read p = .ok content)
    (hsame : ∀ {l : Location} {node : FileNode}, fs'.find p = .ok l → fs.node? l = some node →
      fs'.node? l = some node) :
    fs'.read p = .ok content := by
  obtain ⟨l, node, hfind, hnode, hread⟩ := read_eq_ok h
  have hfind' := find_of_keepsNodes hk hfind hnode
  exact hread hfind' (hsame hfind' hnode)

/-! ## Changes -/

theorem WritesOnly.keepsNodes (h : WritesOnly p fs fs') : KeepsNodes fs fs' := by
  refine ⟨h.workDir, h.hitches, fun {l node} hnode => ?_⟩
  rcases h.node l with hsame | ⟨hnone, -⟩ | ⟨-, hbefore, content, hafter⟩
  · exact ⟨node, hsame.trans hnode, rfl⟩
  · rw [hnone] at hnode
    cases hnode
  · obtain ⟨_, rfl⟩ := hbefore node hnode
    exact ⟨_, hafter, rfl⟩

theorem MadeDirectories.keepsNodes {paths : List Path} (h : MadeDirectories paths fs fs') : KeepsNodes fs fs' :=
  ⟨h.workDir, h.hitches, fun hnode => ⟨_, h.node_of_some hnode, rfl⟩⟩

/-- A node to which the path does not lead is as it was. -/
theorem WritesOnly.node_of_ne (h : WritesOnly p fs fs') (hnode : fs.node? l = some node) (hne : fs'.find p ≠ .ok l) :
    fs'.node? l = some node := by
  rcases h.node l with hsame | ⟨hnone, -⟩ | ⟨hfind, -⟩
  · exact hsame.trans hnode
  · rw [hnone] at hnode
    cases hnode
  · exact absurd hfind hne

theorem Appended.keepsNodes (h : Appended l data fs fs') : KeepsNodes fs fs' := by
  refine ⟨h.workDir, h.hitches, fun {l' node} hnode => ?_⟩
  by_cases hl : l' = l
  · subst hl
    rcases h.self with ⟨content, hcontent, hafter⟩ | ⟨-, hsame⟩
    · rw [hcontent] at hnode
      cases hnode
      exact ⟨_, hafter, rfl⟩
    · exact ⟨node, hsame.trans hnode, rfl⟩
  · exact ⟨node, (h.other hl).trans hnode, rfl⟩

end Fixtures.FileSystem
