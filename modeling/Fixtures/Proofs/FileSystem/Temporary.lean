/-
What is left beside a file that is written as a whole. The file in which its content is prepared has a name that
another file may have: this one is lost, and if the content cannot be written in full or not take its place, what
was prepared stays there. Of everything else nothing is changed, and what is new are directories above the path.
-/
import Fixtures.Proofs.FileSystem.Whole

namespace Fixtures.FileSystem

variable {fs fs₁ fs' : FileSystem} {p : Path} {l target : Location} {data : ByteArray}

/-! ## Steps -/

/-- A node that is as it was when the directories above a path had been made. -/
theorem MadeDirectories.node_or_madeAbove (h : MadeDirectories p.above fs fs₁) (hkeeps : KeepsDirectories fs₁ fs')
    (hnode : fs'.node? l = fs₁.node? l) : fs'.node? l = fs.node? l ∨ MadeAbove p fs fs' l := by
  rcases h.node l with hsame | ⟨hnone, hdir, q, hq, hfind⟩
  · exact .inl (hnode.trans hsame)
  · exact .inr ⟨hnone, hnode.trans hdir, q, hq, find_mono hkeeps hfind hdir⟩

namespace Prepared

/-- The content is prepared elsewhere than where the path leads. -/
theorem ne_target (h : Prepared p fs l) (workDir : Location) : l ≠ p.target workDir := by
  obtain ⟨dir, name, hname, rfl⟩ := h.name
  obtain ⟨dir', htarget⟩ := Path.target_of_fileName hname workDir
  rw [htarget]
  intro heq
  exact name.temporary_ne (List.singleton_inj.1 (List.append_inj' heq rfl).2)

/-- The content takes the place of no directory, neither where it is prepared nor where the path leads. -/
theorem keepsDirectories_move (h : Prepared p fs l) (hwritten : Rewritten l data fs fs₁) (hne : target ≠ l)
    (htarget : fs.node? target ≠ some .directory) :
    KeepsDirectories fs ((fs₁.put target (.file data)).remove l) := by
  have hput : KeepsDirectories fs₁ (fs₁.put target (.file data)) := .put (.inl (by rwa [hwritten.other hne]))
  refine ((hwritten.keepsNodes h.file).keepsDirectories.trans hput).trans (.remove ?_)
  rw [node?_put_of_ne (Ne.symm hne), hwritten.self]
  simp

end Prepared

namespace WroteWhole

variable {r : Except FileError Unit}

theorem workDir (h : WroteWhole p data fs (r, fs')) : fs'.workDir = fs.workDir := by
  cases h with
  | unprepared hmade => exact hmade.workDir
  | unmoved hmade _ _ _ hwritten => exact hwritten.workDir.trans hmade.workDir
  | moved hmade _ hwritten _ heq => rw [heq]; exact hwritten.workDir.trans hmade.workDir

/-- What is neither where the path leads nor where its content is prepared is left alone. -/
theorem node (h : WroteWhole p data fs (r, fs')) (hpath : l ≠ p.target fs.workDir)
    (htemporary : temporaryTarget? p fs.workDir ≠ some l) : fs'.node? l = fs.node? l ∨ MadeAbove p fs fs' l := by
  have hworkDir := h.workDir
  cases h with
  | unprepared hmade => exact hmade.node_or_madeAbove (.refl _) rfl
  | unmoved hmade hprepared _ _ hwritten =>
    have hne : l ≠ _ := fun heq => htemporary (by rw [heq, ← hmade.workDir]; exact hprepared.target)
    exact hmade.node_or_madeAbove (hwritten.keepsNodes hprepared.file).keepsDirectories (hwritten.other hne)
  | moved hmade hprepared hwritten htarget heq hfind =>
    rename_i fs₂ fs₃ l' target
    have hne : l ≠ _ := fun heq => htemporary (by rw [heq, ← hmade.workDir]; exact hprepared.target)
    have hne' : l ≠ target := fun heq => hpath (by rw [heq, find_eq_target hfind, hworkDir])
    have hkeeps := hprepared.keepsDirectories_move hwritten (hprepared.ne_of_find hfind) htarget
    subst heq
    refine hmade.node_or_madeAbove hkeeps ?_
    rw [node?_remove_of_ne hne, node?_put_of_ne hne', hwritten.other hne]

/-- Where the content was prepared there is nothing after it was moved. -/
theorem temporary_of_ok (h : WroteWhole p data fs (.ok (), fs')) (htemporary : temporaryTarget? p fs.workDir = some l) :
    fs'.node? l = none := by
  cases h with
  | moved hmade hprepared _ _ heq =>
    have htarget := hprepared.target
    rw [hmade.workDir, htemporary] at htarget
    cases htarget
    rw [heq, node?_remove, if_neg hprepared.ne_root, if_pos rfl]

/-- Where the content is prepared nothing but a file is changed, and it then has a first part of the content. -/
theorem temporary_of_error {e : FileError} (h : WroteWhole p data fs (.error e, fs'))
    (htemporary : temporaryTarget? p fs.workDir = some l) :
    fs'.node? l = fs.node? l ∨ MadeAbove p fs fs' l ∨
      (∀ node, fs.node? l = some node → ∃ content, node = .file content) ∧
        ∃ taken left, data = taken ++ left ∧ (fs.hitches = [] → left = .empty) ∧
          fs'.node? l = some (.file taken) := by
  cases h with
  | unprepared hmade => exact (hmade.node_or_madeAbove (.refl _) rfl).imp_right .inl
  | unmoved hmade hprepared hdata hleft hwritten =>
    have htarget := hprepared.target
    rw [hmade.workDir, htemporary] at htarget
    cases htarget
    exact .inr (.inr ⟨fun node hnode => hprepared.file (hmade.node_of_some hnode), _, _, hdata, hleft, hwritten.self⟩)

end WroteWhole

/-! ## The rest of the file system -/

/-- Whatever comes of writing a file as a whole, everything is as it was but for the file itself, the one in which
its content is prepared, and directories above the path that were missing. After success nothing is where the
content was prepared. After a failure there is what was there before, or a file with a first part of the content,
without hitches all of it, and this file takes the place of another file at most. -/
theorem writeWhole_frame (p : Path) (data : ByteArray) (fs : FileSystem) :
    let after := fs.writeWhole p data
    after.2.workDir = fs.workDir ∧
      (∀ l, l ≠ p.target fs.workDir → temporaryTarget? p fs.workDir ≠ some l →
        after.2.node? l = fs.node? l ∨ MadeAbove p fs after.2 l) ∧
      ∀ l, temporaryTarget? p fs.workDir = some l →
        match after.1 with
        | .ok _ => after.2.node? l = none
        | .error _ => after.2.node? l = fs.node? l ∨ MadeAbove p fs after.2 l ∨
          (∀ node, fs.node? l = some node → ∃ content, node = .file content) ∧
            ∃ taken left, data = taken ++ left ∧ (fs.hitches = [] → left = .empty) ∧
              after.2.node? l = some (.file taken) := by
  intro after
  have hwrote : WroteWhole p data fs after := wroteWhole p data fs
  obtain ⟨r, fs'⟩ := after
  refine ⟨hwrote.workDir, fun l hpath htemporary => hwrote.node hpath htemporary, fun l htemporary => ?_⟩
  cases r with
  | ok _ => exact hwrote.temporary_of_ok htemporary
  | error e => exact hwrote.temporary_of_error htemporary

/-- A file called like the path with the ending of a prepared one is lost; a prepared file that cannot take the
place of a directory stays; and of one that can only be written in part this part stays. -/
theorem temporary_lost_and_left :
    let fs : FileSystem := {
      entries := [(.ofTexts ["a.tmp"], .file "x".toUTF8), (.ofTexts ["d"], .directory)], workDir := [] }
    let lost := fs.writeWhole (.ofText "a") "y".toUTF8
    let left := fs.writeWhole (.ofText "d") "y".toUTF8
    let stopped := FileSystem.writeWhole (.ofText "s") "yz".toUTF8
      { fs with hitches := [.short 1, .failure .storageFull] }
    (fs.content? (.ofTexts ["a.tmp"]) = some "x".toUTF8 ∧ lost.1.toBool = true ∧
        lost.2.content? (.ofTexts ["a.tmp"]) = none) ∧
      (fs.content? (.ofTexts ["d.tmp"]) = none ∧ left.1.toBool = false ∧
        left.2.content? (.ofTexts ["d.tmp"]) = some "y".toUTF8) ∧
      fs.content? (.ofTexts ["s.tmp"]) = none ∧ stopped.1.toBool = false ∧
        stopped.2.content? (.ofTexts ["s.tmp"]) = some "y".toUTF8 := by
  decide +kernel

end Fixtures.FileSystem
