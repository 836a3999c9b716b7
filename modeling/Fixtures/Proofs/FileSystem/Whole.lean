/-
Files that are written as a whole. The content is prepared in a file of another name, so until it takes its place
nothing that a path leads to is touched: whatever fails, and however much of the content was prepared, a file has
its old content, and a directory is still there. What may appear are missing directories above the path.
-/
import Fixtures.Proofs.FileSystem.Tree
import Fixtures.Proofs.Output.Ready

namespace Fixtures.FileSystem

variable {fs fs' : FileSystem} {p q : Path} {l : Location} {node : FileNode} {data : ByteArray}

/-! ## Steps -/

/-- A file that takes another path lies where this path leads, and nowhere else. -/
theorem rename_spec (h : fs.rename p q = .ok fs') (hfind : fs.find p = .ok l) (hnode : fs.node? l = some node) :
    ∃ target, fs.node? target ≠ some .directory ∧ target ≠ [] ∧
      fs' = (if l = target then fs else (fs.put target node).remove l) ∧
      ∀ {fs'' : FileSystem} {node' : FileNode}, KeepsDirectories fs fs'' → fs''.node? target = some node' →
        node' ≠ .directory → fs''.find q = .ok target := by
  unfold rename at h
  rw [hfind] at h
  split at h
  · cases h
  · cases h
  rename_i source place hsource hwalk
  cases hsource
  split at h
  · cases h
  rename_i name hlast
  simp only at h
  split at h
  · cases h
  rename_i hname
  split at h
  · cases h
  rename_i hsize
  split at h
  · cases h
  rename_i hslash
  rw [hnode] at h
  split at h
  · cases h
  · rename_i hnone _
    cases hnone
  rename_i hsome hdir
  cases hsome
  cases h
  refine ⟨place.dir ++ [name], hdir, by simp, rfl, fun hkeeps hnode' hfile => ?_⟩
  exact find_file (walk_mono hkeeps hwalk) hlast (not_or.1 hname) hsize hslash hnode' hfile

/-- Where the next content of a path is prepared. -/
def temporaryTarget? (p : Path) (workDir : Location) : Option Location := (temporary? p).map fun q => q.target workDir

/-- The file in which the next content of a path is prepared: it has another name, and is no directory. -/
structure Prepared (p : Path) (fs : FileSystem) (l : Location) : Prop where
  target : temporaryTarget? p fs.workDir = some l
  name : ∃ dir name, p.fileName? = some name ∧ l = dir ++ [.ofText (name.display ++ ".tmp")]
  file {node : FileNode} : fs.node? l = some node → ∃ content, node = .file content

theorem Prepared.ne_root (h : Prepared p fs l) : l ≠ [] := by
  obtain ⟨dir, name, -, rfl⟩ := h.name
  simp

/-- The path itself leads to another location. -/
theorem Prepared.ne_of_find {l' : Location} (h : Prepared p fs l) (hfind : fs'.find p = .ok l') : l' ≠ l := by
  obtain ⟨dir, name, hname, rfl⟩ := h.name
  obtain ⟨dir', rfl⟩ := find_fileName hfind hname
  intro heq
  exact name.temporary_ne (List.singleton_inj.1 (List.append_inj' heq rfl).2).symm

/-- A file has been made, or emptied, and holds data now. -/
structure Rewritten (l : Location) (data : ByteArray) (fs fs' : FileSystem) : Prop where
  workDir : fs'.workDir = fs.workDir
  hitches : fs'.hitches <:+ fs.hitches
  other {l' : Location} : l' ≠ l → fs'.node? l' = fs.node? l'
  self : fs'.node? l = some (.file data)

namespace Rewritten

theorem of_appended (hl : l ≠ []) (h : Appended l data (fs.put l (.file .empty)) fs') : Rewritten l data fs fs' where
  workDir := h.workDir
  hitches := h.hitches
  other hne := (h.other hne).trans (node?_put_of_ne hne)
  self := h.node?_emptied hl

/-- Hitches that come to pass afterwards change no node. -/
theorem withHitches {rest : List Hitch} (h : Rewritten l data fs fs') (hrest : rest <:+ fs'.hitches) :
    Rewritten l data fs { fs' with hitches := rest } :=
  ⟨h.workDir, hrest.trans h.hitches, h.other, h.self⟩

theorem keepsNodes (h : Rewritten l data fs fs')
    (hfile : ∀ {node}, fs.node? l = some node → ∃ content, node = .file content) : KeepsNodes fs fs' := by
  refine ⟨h.workDir, h.hitches, fun {l' node} hnode => ?_⟩
  by_cases hl : l' = l
  · subst hl
    obtain ⟨content, rfl⟩ := hfile hnode
    exact ⟨_, h.self, rfl⟩
  · exact ⟨node, (h.other hl).trans hnode, rfl⟩

/-- No directory has been made. -/
theorem addsNoDirectory (h : Rewritten l data fs fs') : KeepsDirectories fs' fs := by
  refine ⟨h.workDir.symm, fun {l'} hdir => ?_⟩
  by_cases hl : l' = l
  · rw [hl, h.self] at hdir
    cases hdir
  · rwa [h.other hl] at hdir

end Rewritten

/-- What comes of writing a file as a whole. -/
inductive WroteWhole (p : Path) (data : ByteArray) (fs : FileSystem) : Except FileError Unit × FileSystem → Prop
  /-- At most the directories above the path were made. -/
  | unprepared {e : FileError} {fs₁ : FileSystem} (hmade : MadeDirectories p.above fs fs₁) :
    WroteWhole p data fs (.error e, fs₁)
  /-- A first part of the content was prepared, all of it without hitches, and stayed where it is. -/
  | unmoved {e : FileError} {fs₁ fs' : FileSystem} {l : Location} {taken left : ByteArray}
    (hmade : MadeDirectories p.above fs fs₁) (hprepared : Prepared p fs₁ l) (hdata : data = taken ++ left)
    (hleft : fs.hitches = [] → left = .empty) (hwritten : Rewritten l taken fs₁ fs') :
    WroteWhole p data fs (.error e, fs')
  /-- The content was prepared, and moved to where the path leads. -/
  | moved {fs₁ fs₂ fs' : FileSystem} {l target : Location} (hmade : MadeDirectories p.above fs fs₁)
    (hprepared : Prepared p fs₁ l) (hwritten : Rewritten l data fs₁ fs₂) (htarget : fs₁.node? target ≠ some .directory)
    (heq : fs' = (fs₂.put target (.file data)).remove l) (hfind : fs'.find p = .ok target) :
    WroteWhole p data fs (.ok (), fs')

/-- The last step: the content that was prepared takes its place, or stays where it is. -/
theorem wroteWhole_rename {fs₁ fs₂ : FileSystem} (hmade : MadeDirectories p.above fs fs₁) (hprepared : Prepared p fs₁ l)
    (hwritten : Rewritten l data fs₁ fs₂) (hsource : fs₂.find q = .ok l) :
    WroteWhole p data fs (match fs₂.rename q p with
      | .ok fs => (.ok (), fs)
      | .error e => (.error e, fs₂)) := by
  split
  · rename_i fs' hrename
    obtain ⟨target, hdir, hroot, heq, hleads⟩ := rename_spec hrename hsource hwritten.self
    have hfile : FileNode.file data ≠ .directory := by simp
    have hne : target ≠ l := hprepared.ne_of_find (hleads (.put (.inl hdir)) (node?_put_self hroot) hfile)
    rw [if_neg (Ne.symm hne)] at heq
    refine .moved hmade hprepared hwritten (by rwa [← hwritten.other hne]) heq ?_
    rw [heq]
    have hremove : (fs₂.put target (.file data)).node? l ≠ some .directory := by
      rw [node?_put_of_ne (Ne.symm hne), hwritten.self]
      simp
    refine hleads ((KeepsDirectories.put (.inl hdir)).trans (.remove hremove)) ?_ hfile
    rw [node?_remove_of_ne hne, node?_put_self hroot]
  · exact .unmoved hmade hprepared (by simp) (fun _ => rfl) hwritten

theorem syncOutcome_suffix : ∀ hitches : List Hitch, (syncOutcome hitches).2 <:+ hitches
  | [] => List.suffix_rfl
  | .short _ :: rest => List.suffix_cons _ rest
  | .failure e :: rest => by
    cases e
    case interrupted => exact (syncOutcome_suffix rest).trans (List.suffix_cons _ rest)
    all_goals exact List.suffix_cons _ rest

theorem wroteWhole (p : Path) (data : ByteArray) (fs : FileSystem) : WroteWhole p data fs (fs.writeWhole p data) := by
  have hmade := madeDirectories_makeParents p fs
  unfold writeWhole
  rcases hparents : fs.makeParents p with ⟨e | _, fs₁⟩ <;> rw [hparents] at hmade
  · exact .unprepared hmade
  simp only at hmade ⊢
  split
  · exact .unprepared hmade
  rename_i prepared htemporary
  split
  · exact .unprepared hmade
  rename_i l fs₂ hopen
  obtain ⟨hl, hnode, hfind⟩ := openFile_spec hopen
  rcases hwrite : Sink.writeAll (OpenFile.mk fs₂ l) data with ⟨outcome, f⟩
  obtain ⟨taken, left, hdata, happended, hok⟩ := OpenFile.appended_of_writeAll hwrite
  rcases hnode with ⟨hfull, rfl⟩ | ⟨hfile, rfl⟩
  · -- a device takes nothing, and cannot be synced
    obtain ⟨-, hnothing⟩ := happended.of_no_file hfull (fun _ => by simp) p.above
    have hunprepared := hmade.trans hnothing
    cases outcome with
    | error e => exact .unprepared hunprepared
    | ok _ =>
      simp only [sync, hnothing.node_of_some hfull]
      exact .unprepared hunprepared
  have hprepared : Prepared p fs₁ l := by
    obtain ⟨name, hname, hlast⟩ := Path.temporary?_eq_some htemporary
    have htarget : temporaryTarget? p fs₁.workDir = some l := by
      rw [temporaryTarget?, htemporary, Option.map_some, ← openFile_eq_target hopen]
    obtain ⟨dir, last, hlast', rfl⟩ := openFile_last hopen
    rw [hlast] at hlast'
    cases hlast'
    exact ⟨htarget, ⟨dir, name, hname, rfl⟩, hfile _⟩
  have hwritten : Rewritten l taken fs₁ f.files := .of_appended hl happended
  cases outcome with
  | error e =>
    refine .unmoved hmade hprepared hdata (fun hhitches => ?_) hwritten
    -- an open file without hitches is ready, so the write has not failed
    have hready : ReadySink.Ready (OpenFile.mk (fs₁.put l (.file .empty)) l) :=
      ⟨List.eq_nil_of_suffix_nil (hhitches ▸ hmade.hitches), _, node?_put_self hl⟩
    obtain ⟨s', heq, -⟩ := Sink.writeAll_of_ready hready data
    rw [hwrite] at heq
    cases heq
  | ok _ =>
    obtain rfl := hok rfl
    rw [ByteArray.append_empty] at hdata
    subst hdata
    simp only [sync, hwritten.self]
    have hsynced := hwritten.withHitches (syncOutcome_suffix f.files.hitches)
    rcases hsync : syncOutcome f.files.hitches with ⟨e | _, rest⟩ <;> rw [hsync] at hsynced
    · exact .unmoved hmade hprepared (by simp) (fun _ => rfl) hsynced
    · have hkeeps := (hsynced.keepsNodes hprepared.file).keepsDirectories
      exact wroteWhole_rename hmade hprepared hsynced (hfind hkeeps hsynced.self (by simp))

/-! ## All or nothing -/

/-- A directory above a path that was missing and has been made. -/
def MadeAbove (p : Path) (fs fs' : FileSystem) (l : Location) : Prop :=
  fs.node? l = none ∧ fs'.node? l = some .directory ∧ ∃ q ∈ p.above, fs'.find q = .ok l

/-- What a failed attempt to write to a path leaves: the directories above were made first, and then nothing has
changed to which the path could lead. -/
structure FailedAttempt (p : Path) (fs fs₁ fs' : FileSystem) : Prop where
  made : MadeDirectories p.above fs fs₁
  keeps : KeepsNodes fs₁ fs'
  adds : KeepsDirectories fs' fs₁
  node {fs'' : FileSystem} {l : Location} : fs''.find p = .ok l → fs'.node? l = fs₁.node? l

theorem WroteWhole.failedAttempt {e : FileError} (h : WroteWhole p data fs (.error e, fs')) :
    ∃ fs₁, FailedAttempt p fs fs₁ fs' := by
  cases h with
  | unprepared hmade => exact ⟨fs', hmade, .refl fs', .refl fs', fun _ => rfl⟩
  | unmoved hmade hprepared _ _ hwritten =>
    exact ⟨_, {
      made := hmade
      keeps := hwritten.keepsNodes hprepared.file
      adds := hwritten.addsNoDirectory
      node := fun hfind => hwritten.other (hprepared.ne_of_find hfind) }⟩

namespace FailedAttempt

variable {fs₁ : FileSystem} {e : FileError}

theorem workDir (h : FailedAttempt p fs fs₁ fs') : fs'.workDir = fs.workDir :=
  h.adds.workDir.symm.trans h.made.workDir

/-- What the path led to is there as it was. -/
theorem find (h : FailedAttempt p fs fs₁ fs') (hfind : fs.find p = .ok l) (hnode : fs.node? l = some node) :
    fs'.find p = .ok l ∧ fs'.node? l = some node := by
  refine ⟨find_of_keepsNodes (h.made.keepsNodes.trans h.keeps) hfind hnode, ?_⟩
  rw [h.node hfind, h.made.node_of_some hnode]

theorem madeAbove_of_ne (h : FailedAttempt p fs fs₁ fs') (hnode : fs'.node? l = fs₁.node? l)
    (hne : fs'.node? l ≠ fs.node? l) : MadeAbove p fs fs' l := by
  rcases h.made.node l with hsame | ⟨hnone, hdir, q, hq, hfind⟩
  · exact absurd (hnode.trans hsame) hne
  · exact ⟨hnone, hnode.trans hdir, q, hq, find_mono h.keeps.keepsDirectories hfind hdir⟩

/-- A path that leads somewhere, and did not before, goes up. -/
theorem up_of_found (h : FailedAttempt p fs fs₁ fs') (htree : fs.IsTree) (hbefore : fs.find p = .error e)
    (hfind : fs'.find p = .ok l) : .up ∈ p.parts := by
  refine Classical.byContradiction fun hup => ?_
  rcases h.made.node l with hsame | ⟨-, -, q, hq, hqfind⟩
  · rw [htree.find_of_down h.workDir hup hfind ((h.node hfind).trans hsame)] at hbefore
    cases hbefore
  · -- the paths above do not lead to where this one leads
    refine find_ne_of_mem_above hup hq hqfind ?_
    rw [find_eq_target hfind, h.adds.workDir]

/-- For a path to lead somewhere where it did not before, a directory must have been made. -/
theorem exists_madeAbove (h : FailedAttempt p fs fs₁ fs') (hbefore : fs.find p = .error e)
    (hfind : fs'.find p = .ok l) : ∃ made, MadeAbove p fs fs' made := by
  refine Classical.byContradiction fun hnone => ?_
  have hsame {l' : Location} (heq : fs'.node? l' = fs₁.node? l') : fs'.node? l' = fs.node? l' :=
    Classical.byContradiction fun hne => hnone ⟨l', h.madeAbove_of_ne heq hne⟩
  have hdirectories : KeepsDirectories fs' fs := by
    refine ⟨h.workDir.symm, fun {l'} hdir => ?_⟩
    rw [← hsame (hdir.trans (h.adds.directory hdir).symm), hdir]
  obtain ⟨place, hwalk, -, hagain⟩ := find_spec hfind
  rw [hagain (walk_mono hdirectories hwalk) (hsame (h.node hfind)).symm] at hbefore
  cases hbefore

end FailedAttempt

/-- Writing a file as a whole is done, or else is not seen at the path: if it succeeds the path leads to a file of
exactly the data, and if it fails what the path led to is there as it was. A path that led nowhere still leads
nowhere, unless it goes up from a directory that was missing and has been made: it may then lead to what was
there before, or to such a directory. -/
theorem writeWhole_all_or_nothing (htree : fs.IsTree) (p : Path) (data : ByteArray) :
    (∀ fs', fs.writeWhole p data = (.ok (), fs') →
      ∃ l, fs'.find p = .ok l ∧ fs'.node? l = some (.file data)) ∧
    ∀ e fs', fs.writeWhole p data = (.error e, fs') →
      (∀ l, fs.find p = .ok l → fs'.find p = .ok l ∧ fs'.node? l = fs.node? l) ∧
      ∀ e', fs.find p = .error e' → ∀ l, fs'.find p = .ok l →
        .up ∈ p.parts ∧ (∃ made, MadeAbove p fs fs' made) ∧ (fs'.node? l = fs.node? l ∨ MadeAbove p fs fs' l) := by
  have hwrote := wroteWhole p data fs
  constructor
  · intro fs' h
    rw [h] at hwrote
    cases hwrote with
    | moved hmade hprepared hwritten htarget heq hfind =>
      rename_i fs₁ fs₂ l target
      have hroot : target ≠ [] := fun h => htarget (h ▸ node?_root fs₁)
      refine ⟨target, hfind, ?_⟩
      rw [heq, node?_remove_of_ne (hprepared.ne_of_find hfind), node?_put_self hroot]
  · intro e fs' h
    rw [h] at hwrote
    obtain ⟨fs₁, hattempt⟩ := hwrote.failedAttempt
    constructor
    · intro l hfind
      obtain ⟨node, hnode⟩ := htree.node_of_find hfind
      obtain ⟨hfind', hnode'⟩ := hattempt.find hfind hnode
      exact ⟨hfind', hnode'.trans hnode.symm⟩
    · intro e' hbefore l hfind
      refine ⟨hattempt.up_of_found htree hbefore hfind, hattempt.exists_madeAbove hbefore hfind, ?_⟩
      by_cases hsame : fs'.node? l = fs.node? l
      · exact .inl hsame
      · exact .inr (hattempt.madeAbove_of_ne (hattempt.node hfind) hsame)

/-- A file that is written anew, and a directory that is in the way. -/
theorem writeWhole_all_or_nothing_directory :
    let fs : FileSystem := {
      entries := [(.ofTexts ["a"], .file "x".toUTF8), (.ofTexts ["d"], .directory)], workDir := [] }
    fs.IsTree ∧
      (∃ fs' l, fs.writeWhole (.ofText "a") "yz".toUTF8 = (.ok (), fs') ∧ fs'.find (.ofText "a") = .ok l ∧
        fs'.node? l = some (.file "yz".toUTF8)) ∧
      ∃ e fs', fs.writeWhole (.ofText "d") "yz".toUTF8 = (.error e, fs') ∧
        fs'.find (.ofText "d") = .ok (.ofTexts ["d"]) ∧ fs'.node? (.ofTexts ["d"]) = some .directory := by
  intro fs
  have htree : fs.IsTree := by
    refine ⟨rfl, fun {l name node} h => ?_⟩
    cases l with
    | nil => rfl
    | cons first rest =>
      have hne (only : String) : (first :: rest ++ [name] == Location.ofTexts [only]) = false :=
        beq_false_of_ne (by simp [Location.ofTexts])
      simp only [node?, fs, List.lookup_cons, hne] at h
      simp at h
  obtain ⟨hok, -⟩ := writeWhole_all_or_nothing htree (.ofText "a") "yz".toUTF8
  obtain ⟨-, herror⟩ := writeWhole_all_or_nothing htree (.ofText "d") "yz".toUTF8
  have ha : (fs.writeWhole (.ofText "a") "yz".toUTF8).1.toBool = true := by decide +kernel
  have hd : (fs.writeWhole (.ofText "d") "yz".toUTF8).1.toBool = false := by decide +kernel
  refine ⟨htree, ?_, ?_⟩
  · rcases hrun : fs.writeWhole (.ofText "a") "yz".toUTF8 with ⟨_ | _, fs'⟩ <;> rw [hrun] at ha
    · cases ha
    · obtain ⟨l, hfind, hnode⟩ := hok fs' hrun
      exact ⟨fs', l, rfl, hfind, hnode⟩
  · rcases hrun : fs.writeWhole (.ofText "d") "yz".toUTF8 with ⟨e | _, fs'⟩ <;> rw [hrun] at hd
    · obtain ⟨hsame, -⟩ := herror e fs' hrun
      obtain ⟨hfind, hnode⟩ := hsame (.ofTexts ["d"]) rfl
      exact ⟨e, fs', rfl, hfind, hnode⟩
    · cases hd

/-- The way up from a missing directory leads somewhere after an attempt that fails for want of a name. -/
theorem way_up_made :
    let fs : FileSystem := { entries := [], workDir := [] }
    let p : Path := .ofText "a/.."
    let after := fs.writeWhole p "x".toUTF8
    fs.find p = .error .notFound ∧ after.1 = .error .invalidInput ∧ after.2.find p = .ok [] :=
  ⟨rfl, rfl, rfl⟩

end Fixtures.FileSystem
