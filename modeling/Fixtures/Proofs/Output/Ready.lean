/-
Sinks that are ready. A ready sink takes the whole of every offer and stays ready, so what is written to
it one after the other is written without a failure. A file is ready from the moment it is opened if there are no
hitches, and so are a buffer and a counter in front of it; a device that takes no byte never is.
-/
import Fixtures.Proofs.Output.Csv
import Fixtures.Proofs.Output.File

namespace Fixtures

/-- A sink that, once ready, takes every offer as a whole. -/
class ReadySink (ω : Type) [Sink ω] where
  Ready : ω → Prop
  write {s : ω} : Ready s → ∀ data, ∃ s', Sink.write s data = (.ok data.size, s') ∧ Ready s'
  flush {s : ω} : Ready s → ∃ s', Sink.flush s = (.ok (), s') ∧ Ready s'

open ReadySink

/-- A success after which the sink is ready. -/
def Succeeds {ε ω : Type} [Sink ω] [ReadySink ω] (r : Except ε Unit × ω) : Prop := ∃ s', r = (.ok (), s') ∧ Ready s'

variable {ω : Type} [Sink ω] [ReadySink ω] {s : ω}

/-! ## Whole writes -/

namespace Sink

theorem drain_of_ready (h : Ready s) (data : ByteArray) :
    ∃ s', drain s data = (.ok (), .empty, s') ∧ Ready s' := by
  unfold drain
  by_cases hempty : data.size = 0
  · obtain rfl := ByteArray.size_eq_zero_iff.1 hempty
    exact ⟨s, by cases (ByteArray.empty.size + patience s) <;> rfl, h⟩
  · -- the first offer takes everything, and there is room for a second one of nothing
    obtain ⟨s', hwrite, hready⟩ := ReadySink.write h data
    obtain ⟨n, hn⟩ := Nat.exists_eq_succ_of_ne_zero hempty
    obtain ⟨fuel, hfuel⟩ : ∃ fuel, data.size + patience s = fuel + 1 := ⟨n + patience s, by omega⟩
    refine ⟨s', ?_, hready⟩
    rw [hfuel, drainWithin, if_neg hempty, hwrite, hn]
    have hrest : data.extract (n + 1) n.succ = .empty := by
      rw [← ByteArray.size_eq_zero_iff, ByteArray.size_extract]
      omega
    simp only [hrest]
    cases fuel <;> rfl

theorem writeAll_of_ready (h : Ready s) (data : ByteArray) : Succeeds (writeAll s data) := by
  obtain ⟨s', hdrain, hready⟩ := drain_of_ready h data
  exact ⟨s', by rw [writeAll, hdrain], hready⟩

end Sink

/-! ## Layers -/

instance : ReadySink OpenFile where
  Ready f := f.files.hitches = [] ∧ ∃ content, f.files.node? f.location = some (.file content)
  write {f} h data := by
    obtain ⟨hhitches, content, hnode⟩ := h
    refine ⟨{ f with files := f.files.put f.location (.file (content ++ data)) }, ?_, hhitches, content ++ data, ?_⟩
    · simp only [Sink.write, FileSystem.write, hhitches, FileSystem.append, hnode]
    · exact FileSystem.node?_put_self (FileSystem.ne_root_of_file hnode)
  flush {f} h := ⟨f, rfl, h⟩

namespace Buffered

theorem empty_of_ready {b : Buffered ω} (h : Ready b.inner) :
    ∃ b' : Buffered ω, b.empty = (.ok (), b') ∧ Ready b'.inner := by
  obtain ⟨s', hdrain, hready⟩ := Sink.drain_of_ready h b.pending
  exact ⟨⟨s', .empty⟩, by rw [empty, hdrain], hready⟩

theorem take_of_ready {b : Buffered ω} (h : Ready b.inner) (data : ByteArray) :
    ∃ b' : Buffered ω, b.take data = (.ok data.size, b') ∧ Ready b'.inner := by
  unfold take
  split
  · obtain ⟨s', hwrite, hready⟩ := write h data
    exact ⟨{ b with inner := s' }, by rw [hwrite], hready⟩
  · exact ⟨_, rfl, h⟩

instance : ReadySink (Buffered ω) where
  Ready b := Ready b.inner
  write {b} h data := by
    simp only [Sink.write]
    split
    · exact take_of_ready h data
    · obtain ⟨b', hempty, hready⟩ := empty_of_ready h
      rw [hempty]
      exact take_of_ready hready data
  flush {b} h := by
    obtain ⟨b', hempty, hready⟩ := empty_of_ready h
    obtain ⟨s', hflush, hready'⟩ := flush hready
    refine ⟨{ b' with inner := s' }, ?_, hready'⟩
    simp only [Sink.flush, hempty, hflush]

end Buffered

instance : ReadySink (Counting ω) where
  Ready c := Ready c.inner
  write {c} h data := by
    obtain ⟨s', hwrite, hready⟩ := write h data
    exact ⟨⟨s', Counting.saturatingAdd c.bytes data.size⟩, by simp only [Sink.write, hwrite], hready⟩
  flush {c} h := by
    obtain ⟨s', hflush, hready⟩ := flush h
    exact ⟨⟨s', c.bytes⟩, by simp only [Sink.flush, hflush], hready⟩

/-! ## Blocks of CSV -/

namespace Csv.Blocks

/-- A success after which the sink behind the blocks is ready. -/
def Succeeds (r : Except FileError Unit × Blocks ω) : Prop := ∃ b', r = (.ok (), b') ∧ Ready b'.sink

variable {b : Blocks ω}

theorem pass_of_ready (h : Ready b.sink) : Succeeds b.pass := by
  obtain ⟨s', hwrite, hready⟩ := Sink.writeAll_of_ready h b.pending
  exact ⟨⟨s', .empty⟩, by rw [pass, hwrite], hready⟩

theorem putMark_of_ready (h : Ready b.sink) (data : ByteArray) : Succeeds (b.putMark data) := by
  unfold putMark
  split
  · exact ⟨_, rfl, h⟩
  · obtain ⟨b', hpass, hready⟩ := pass_of_ready h
    exact ⟨{ b' with pending := b'.pending ++ data }, by rw [hpass], hready⟩

theorem putText_of_ready : ∀ (fuel : Nat) {b : Blocks ω} (_ : Ready b.sink) (data : ByteArray),
    Succeeds (putText fuel b data)
  | 0, b, h, _ => ⟨b, rfl, h⟩
  | fuel + 1, b, h, data => by
    rw [putText]
    split
    · exact ⟨_, rfl, h⟩
    · obtain ⟨b', hpass, hready⟩ :=
        pass_of_ready (b := { b with pending := b.pending ++ data.extract 0 (capacity - b.pending.size) }) h
      rw [hpass]
      exact putText_of_ready fuel hready _

theorem put_of_ready (h : Ready b.sink) (t : Token) : Succeeds (b.put t) := by
  cases t with
  | mark cs => exact putMark_of_ready h (encodeText cs)
  | text cs => exact putText_of_ready _ h (encodeText cs)

theorem putAll_of_ready : ∀ {b : Blocks ω} (_ : Ready b.sink) (tokens : List Token), Succeeds (b.putAll tokens)
  | b, h, [] => ⟨b, rfl, h⟩
  | b, h, t :: rest => by
    obtain ⟨b', hput, hready⟩ := put_of_ready h t
    rw [putAll, hput]
    exact putAll_of_ready hready rest

end Csv.Blocks

/-! ## Files -/

/-- Whether a node is a device that takes no byte. -/
def FileNode.isFull : FileNode → Bool
  | full => true
  | _ => false

/-- Whether a path leads to a device that takes no byte. -/
def FileSystem.isFull (fs : FileSystem) (p : Path) : Bool :=
  match fs.find p with
  | .ok l => (fs.node? l).any FileNode.isFull
  | .error _ => false

namespace OpenFile

/-- A device that takes no byte has taken none, and what it was offered has changed no node. -/
theorem took_of_full {f f' : OpenFile} {data : ByteArray} (hfull : f.files.node? f.location = some .full)
    (h : LawfulSink.Took f data f') (paths : List Path) : data = .empty ∧ f.files.MadeDirectories paths f'.files :=
  h.2.of_no_file hfull (fun _ => by simp) paths

end OpenFile

namespace FileOutput

variable {p : Path} {fs fs' : FileSystem} {o : FileOutput}

/-- An output that was created is ready if there are no hitches, unless its path leads to a device that takes no
byte. -/
theorem create_ready (h : create p fs = (.ok o, fs')) :
    ∃ f, o = ofFile f ∧ (fs'.isFull p = true → f.files.node? f.location = some .full) ∧
      (fs.hitches = [] → fs'.isFull p = false → Ready f) := by
  have hmade := FileSystem.madeDirectories_makeParents p fs
  unfold create at h
  rcases hparents : fs.makeParents p with ⟨e | _, fs₁⟩ <;> rw [hparents] at h hmade
  · cases h
  simp only at h
  split at h
  · cases h
  rename_i l fs₂ hopen
  cases h
  refine ⟨⟨fs', l⟩, rfl, ?_⟩
  obtain ⟨hl, hnew, hfind⟩ := FileSystem.openFile_spec hopen
  rcases hnew with ⟨hfull, rfl⟩ | ⟨hfile, rfl⟩
  · have hpath : fs'.isFull p = true := by
      unfold FileSystem.isFull
      rw [hfind (.refl _) hfull (by simp)]
      simp only [hfull]
      rfl
    refine ⟨fun _ => hfull, fun _ hready => ?_⟩
    rw [hpath] at hready
    cases hready
  · have hnode : (fs₁.put l (.file .empty)).node? l = some (.file .empty) := FileSystem.node?_put_self hl
    have hkeeps : fs₁.KeepsDirectories (fs₁.put l (.file .empty)) :=
      .put (.inl fun hdir => by obtain ⟨_, h⟩ := hfile _ hdir; cases h)
    have hpath : (fs₁.put l (.file .empty)).isFull p = false := by
      unfold FileSystem.isFull
      rw [hfind hkeeps hnode (by simp)]
      simp only [hnode]
      rfl
    refine ⟨fun hfull => ?_, fun hhitches _ => ⟨?_, .empty, hnode⟩⟩
    · rw [hpath] at hfull
      cases hfull
    · exact List.eq_nil_of_suffix_nil (hhitches ▸ hmade.hitches)

theorem complete_of_ready (h : Ready o) : ∃ n fs', o.complete = (.ok n, fs') := by
  obtain ⟨o', hflush, -⟩ := flush h
  exact ⟨o'.bytes, o'.close, by rw [complete, hflush]⟩

end FileOutput

end Fixtures
