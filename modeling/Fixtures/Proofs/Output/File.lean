/-
Outputs that go to a file. What a file takes of an offer stands at its end and changes nothing else, so an
output that was created, written and completed has put exactly its data into the file, and its counter says
how many bytes these are. What fails on the way changes no other file.
-/
import Fixtures.Output.Json
import Fixtures.Proofs.FileSystem.Actions
import Fixtures.Proofs.Output.Layers

namespace Fixtures

open LawfulSink

/-! ## Appending -/

namespace FileSystem

variable {fs fs' fs'' : FileSystem} {l : Location} {a b data : ByteArray}

/-- Of the nodes at most the file at a location is another one: data stands behind its content. -/
structure Appended (l : Location) (data : ByteArray) (fs fs' : FileSystem) : Prop where
  workDir : fs'.workDir = fs.workDir
  hitches : fs'.hitches <:+ fs.hitches
  other {l' : Location} : l' ≠ l → fs'.node? l' = fs.node? l'
  self : (∃ content, fs.node? l = some (.file content) ∧ fs'.node? l = some (.file (content ++ data))) ∨
    data = .empty ∧ fs'.node? l = fs.node? l

theorem ne_root_of_file {content : ByteArray} (h : fs.node? l = some (.file content)) : l ≠ [] := by
  rintro rfl
  rw [node?_root] at h
  cases h

namespace Appended

theorem refl (l : Location) (fs : FileSystem) : Appended l .empty fs fs :=
  ⟨rfl, List.suffix_rfl, fun _ => rfl, .inr ⟨rfl, rfl⟩⟩

/-- Hitches that come to pass change no node. -/
theorem nothing {rest : List Hitch} (h : rest <:+ fs.hitches) : Appended l .empty fs { fs with hitches := rest } :=
  ⟨rfl, h, fun _ => rfl, .inr ⟨rfl, rfl⟩⟩

theorem put {content : ByteArray} (h : fs.node? l = some (.file content)) (data : ByteArray) :
    Appended l data fs (fs.put l (.file (content ++ data))) :=
  ⟨rfl, List.suffix_rfl, fun hl => node?_put_of_ne hl, .inl ⟨content, h, node?_put_self (ne_root_of_file h)⟩⟩

theorem trans (h : Appended l a fs fs') (h' : Appended l b fs' fs'') : Appended l (a ++ b) fs fs'' where
  workDir := h'.workDir.trans h.workDir
  hitches := h'.hitches.trans h.hitches
  other hl := (h'.other hl).trans (h.other hl)
  self := by
    rcases h.self with ⟨content, hnode, hafter⟩ | ⟨rfl, hsame⟩
    · refine .inl ⟨content, hnode, ?_⟩
      rcases h'.self with ⟨content', hnode', hafter'⟩ | ⟨rfl, hsame'⟩
      · rw [hafter] at hnode'
        cases hnode'
        rw [hafter', ByteArray.append_assoc]
      · rw [hsame', hafter, ByteArray.append_empty]
    · rw [ByteArray.empty_append, ← hsame]
      exact h'.self

/-- To what is no file nothing is added, and no node is another one. -/
theorem of_no_file {node : FileNode} (h : Appended l data fs fs') (hnode : fs.node? l = some node)
    (hfile : ∀ content, node ≠ .file content) (paths : List Path) :
    data = .empty ∧ MadeDirectories paths fs fs' := by
  rcases h.self with ⟨content, hcontent, -⟩ | ⟨hempty, hsame⟩
  · rw [hcontent] at hnode
    cases hnode
    exact absurd rfl (hfile content)
  · refine ⟨hempty, h.workDir, h.hitches, fun l' => .inl ?_⟩
    by_cases hl : l' = l
    · rw [hl, hsame]
    · exact h.other hl

theorem keepsDirectories (h : Appended l data fs fs') : KeepsDirectories fs fs' := by
  refine ⟨h.workDir, fun {l'} hdir => ?_⟩
  by_cases hl : l' = l
  · subst hl
    exact (h.of_no_file hdir (fun _ => by simp) []).2.node_of_some hdir
  · rw [h.other hl, hdir]

/-- A file that was opened to be emptied holds what was added since. -/
theorem node?_emptied (hl : l ≠ []) (h : Appended l data (fs.put l (.file .empty)) fs') :
    fs'.node? l = some (.file data) := by
  have hself : (fs.put l (.file .empty)).node? l = some (.file .empty) := node?_put_self hl
  rcases h.self with ⟨content, hcontent, hafter⟩ | ⟨rfl, hsame⟩
  · rw [hself] at hcontent
    cases hcontent
    rw [hafter, ByteArray.empty_append]
  · rw [hsame, hself]

end Appended

theorem append_ok {n : Nat} (h : fs.append l data = (.ok n, fs')) : n = data.size ∧ Appended l data fs fs' := by
  unfold append at h
  split at h <;> cases h
  exact ⟨rfl, .put (by assumption) data⟩

theorem append_error {e : FileError} (h : fs.append l data = (.error e, fs')) : fs' = fs := by
  unfold append at h
  split at h <;> cases h <;> rfl

/-- A write adds as many bytes as it says, whatever hitch there is. -/
theorem write_ok {n : Nat} (h : fs.write l data = (.ok n, fs')) :
    n ≤ data.size ∧ Appended l (data.extract 0 n) fs fs' := by
  unfold write at h
  split at h
  · obtain ⟨rfl, happended⟩ := append_ok h
    exact ⟨Nat.le_refl _, by rwa [ByteArray.extract_zero_size]⟩
  · rename_i most rest hhitches
    have hused : Appended l .empty fs { fs with hitches := rest } := .nothing (hhitches ▸ List.suffix_cons _ _)
    obtain ⟨hn, happended⟩ := append_ok h
    have hsize : n = min most data.size := by
      rw [hn, ByteArray.size_extract]
      omega
    rw [hsize]
    exact ⟨Nat.min_le_right _ _, by simpa using hused.trans happended⟩
  · cases h

theorem write_error {e : FileError} (h : fs.write l data = (.error e, fs')) : Appended l .empty fs fs' := by
  unfold write at h
  split at h
  · rw [append_error h]
    exact .refl l fs
  · rename_i hhitches
    rw [append_error h]
    exact .nothing (hhitches ▸ List.suffix_cons _ _)
  · rename_i hhitches
    cases h
    exact .nothing (hhitches ▸ List.suffix_cons _ _)

end FileSystem

/-! ## Open files -/

namespace OpenFile

variable {f f' : OpenFile} {data : ByteArray}

instance : LawfulSink OpenFile where
  Took f data f' := f'.location = f.location ∧ f.files.Appended f.location data f'.files
  nothing f := ⟨rfl, .refl _ _⟩
  more {f f' f'' a b} h h' := by
    obtain ⟨hl, h⟩ := h
    obtain ⟨hl', h'⟩ := h'
    rw [hl] at h'
    exact ⟨hl'.trans hl, h.trans h'⟩
  write_ok {f f' data n} h := by
    rcases hwrite : f.files.write f.location data with ⟨outcome, files⟩
    simp only [Sink.write, hwrite] at h
    cases h
    obtain ⟨hn, happended⟩ := FileSystem.write_ok hwrite
    exact ⟨hn, rfl, happended⟩
  write_error {f f' data e} h := by
    rcases hwrite : f.files.write f.location data with ⟨outcome, files⟩
    simp only [Sink.write, hwrite] at h
    cases h
    exact ⟨rfl, FileSystem.write_error hwrite⟩
  flush h := by cases h; exact ⟨rfl, .refl _ _⟩

/-- However the write of data to an open file ends, a first part of it stands in the file, and all of it after a
success. -/
theorem appended_of_writeAll {outcome : Except FileError Unit} (h : Sink.writeAll f data = (outcome, f')) :
    ∃ taken left, data = taken ++ left ∧ f.files.Appended f.location taken f'.files ∧
      (outcome = .ok () → left = .empty) := by
  rcases hdrain : Sink.drain f data with ⟨result, left, s⟩
  rw [Sink.writeAll, hdrain] at h
  cases h
  obtain ⟨taken, hdata, htook, hok⟩ := Sink.drain_spec hdrain
  exact ⟨taken, left, hdata, htook.2, hok⟩

end OpenFile

/-! ## What a write leaves -/

namespace FileSystem

/-- Whatever came of writing to a path: all nodes are as they were but for the file to which the path
leads, and what is new besides it are directories above the path. -/
structure WritesOnly (p : Path) (fs fs' : FileSystem) : Prop where
  workDir : fs'.workDir = fs.workDir
  hitches : fs'.hitches <:+ fs.hitches
  node (l : Location) : fs'.node? l = fs.node? l ∨
    (fs.node? l = none ∧ fs'.node? l = some .directory ∧ ∃ q ∈ p.above, fs'.find q = .ok l) ∨
    (fs'.find p = .ok l ∧ (∀ node, fs.node? l = some node → ∃ content, node = .file content) ∧
      ∃ content, fs'.node? l = some (.file content))

theorem MadeDirectories.writesOnly {p : Path} {fs fs' : FileSystem} (h : MadeDirectories p.above fs fs') :
    WritesOnly p fs fs' := by
  refine ⟨h.workDir, h.hitches, fun l => ?_⟩
  rcases h.node l with hsame | hnew
  · exact .inl hsame
  · exact .inr (.inl hnew)

/-- After the directories were made, only the file to which the path leads is another one. -/
theorem MadeDirectories.writesOnly_of_file {p : Path} {fs fs₁ fs' : FileSystem} {l : Location} {data : ByteArray}
    (hmade : MadeDirectories p.above fs fs₁) (hkeeps : KeepsDirectories fs₁ fs')
    (hhitches : fs'.hitches <:+ fs₁.hitches)
    (hother : ∀ l', l' ≠ l → fs'.node? l' = fs₁.node? l')
    (hbefore : ∀ node, fs₁.node? l = some node → ∃ content, node = .file content)
    (hfind : fs'.find p = .ok l) (hnode : fs'.node? l = some (.file data)) : WritesOnly p fs fs' := by
  refine ⟨hkeeps.workDir.trans hmade.workDir, hhitches.trans hmade.hitches, fun l' => ?_⟩
  by_cases hl : l' = l
  · subst hl
    exact .inr (.inr ⟨hfind, fun node hn => hbefore node (hmade.node_of_some hn), data, hnode⟩)
  · rw [hother l' hl]
    rcases hmade.node l' with hsame | ⟨hnone, hdir, q, hq, hqfind⟩
    · exact .inl hsame
    · exact .inr (.inl ⟨hnone, hdir, q, hq, find_mono hkeeps hqfind hdir⟩)

theorem WritesOnly.refl (p : Path) (fs : FileSystem) : WritesOnly p fs fs :=
  (MadeDirectories.refl p.above fs).writesOnly

end FileSystem

/-! ## Outputs -/

namespace FileOutput

variable {p : Path} {fs fs' : FileSystem} {o : FileOutput} {f : OpenFile} {data : ByteArray}

/-- An output as it is created, for an open file. -/
def ofFile (f : OpenFile) : FileOutput := .start (.start f)

theorem create_error {e : FileError} (h : create p fs = (.error e, fs')) : fs.MadeDirectories p.above fs' := by
  have hmade := FileSystem.madeDirectories_makeParents p fs
  unfold create at h
  rcases hparents : fs.makeParents p with ⟨e | _, fs₁⟩ <;> rw [hparents] at h hmade
  · cases h
    exact hmade
  · simp only at h
    split at h <;> cases h
    exact hmade

/-- The file of an output that was created: from there on only its content changes, and it holds what
it took. -/
theorem create_ok (h : create p fs = (.ok o, fs')) :
    ∃ f, o = ofFile f ∧ ∀ {data : ByteArray} {f' : OpenFile}, Took f data f' →
      fs.WritesOnly p f'.files ∧ f'.files.read p = .ok data := by
  have hmade := FileSystem.madeDirectories_makeParents p fs
  unfold create at h
  rcases hparents : fs.makeParents p with ⟨e | _, fs₁⟩ <;> rw [hparents] at h hmade
  · cases h
  simp only at h
  split at h
  · cases h
  rename_i l fs₂ hopen
  cases h
  refine ⟨⟨fs', l⟩, rfl, fun {data f'} htook => ?_⟩
  obtain ⟨hl, hnew, hfind⟩ := FileSystem.openFile_spec hopen
  have happended : fs'.Appended l data f'.files := htook.2
  rcases hnew with ⟨hfull, rfl⟩ | ⟨hfile, rfl⟩
  · -- a full device takes nothing, so the data is empty, and so is what is read of it
    obtain ⟨rfl, hnothing⟩ := happended.of_no_file hfull (fun _ => by simp) p.above
    have hafter := hnothing.node_of_some hfull
    exact ⟨(hmade.trans hnothing).writesOnly,
      FileSystem.read_full (hfind happended.keepsDirectories hafter (by simp)) hafter⟩
  · have hput : fs₁.KeepsDirectories (fs₁.put l (.file .empty)) :=
      .put (.inl fun hdir => by obtain ⟨_, h⟩ := hfile _ hdir; cases h)
    have hkeeps := hput.trans happended.keepsDirectories
    have hnode := happended.node?_emptied hl
    have hread := hfind hkeeps hnode (by simp)
    refine ⟨hmade.writesOnly_of_file hkeeps happended.hitches (fun l' hl' => ?_) hfile hread hnode,
      FileSystem.read_file hread hnode⟩
    rw [happended.other hl', FileSystem.node?_put_of_ne hl']

/-! ## Completion -/

theorem relayed_of_took (h : Took (ofFile f) data o) :
    Relayed f .empty data o.inner.inner o.inner.pending ∧ o.bytes = Counting.saturatingAdd 0 data.size := h

/-- A closed output has passed something on to its file. -/
theorem close_spec (h : Took (ofFile f) data o) : ∃ taken f', Took f taken f' ∧ o.close = f'.files := by
  obtain ⟨passed, -, htook⟩ := (relayed_of_took h).1
  rcases hempty : o.inner.empty with ⟨outcome, b⟩
  obtain ⟨⟨passed', -, htook'⟩, -⟩ := Buffered.empty_spec hempty
  refine ⟨_, _, more htook htook', ?_⟩
  rw [close, Buffered.finish, hempty]

/-- A completed output has passed on all its data and gives their number; one whose completion fails
has passed on something. -/
theorem complete_spec (h : Took (ofFile f) data o) :
    match o.complete with
    | (.ok n, fs') => n = Counting.saturatingAdd 0 data.size ∧ ∃ f', Took f data f' ∧ fs' = f'.files
    | (.error e, fs') => (∃ cause, e = .file cause) ∧ ∃ taken f', Took f taken f' ∧ fs' = f'.files := by
  obtain ⟨hrelayed, hbytes⟩ := relayed_of_took h
  -- the counter passes the flush on to its buffer, and keeps its number
  rcases hflush : Sink.flush o.inner with ⟨outcome, b⟩
  obtain ⟨hpassed, hempty⟩ := Buffered.flush_spec hflush
  have hafter := hrelayed.trans_nothing hpassed
  have hcounted : Sink.flush o = (outcome, ⟨b, o.bytes⟩) := by
    simp only [Sink.flush] at hflush ⊢
    rw [hflush]
  unfold complete
  rw [hcounted]
  cases outcome with
  | error e => exact ⟨⟨e, rfl⟩, close_spec (o := ⟨b, o.bytes⟩) ⟨hafter, hbytes⟩⟩
  | ok _ =>
    have hpending := hempty rfl
    refine ⟨hbytes, b.inner, ?_, ?_⟩
    · rw [hpending] at hafter
      exact hafter.took
    · show (Buffered.finish b).files = _
      rw [Buffered.finish, Buffered.empty, hpending, Sink.drain_empty]

end FileOutput

end Fixtures
