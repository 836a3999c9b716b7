/-
Sinks in front of other ones. A buffer and a counter give account of their bytes whenever the sink behind
them does: what a buffer was given is what it passed on and what it holds back, in order, and a counter
has counted the bytes that were taken.
-/
import Fixtures.Output.Buffered
import Fixtures.Output.Counting
import Fixtures.Proofs.Output.Sink

namespace Fixtures

open LawfulSink

variable {ω : Type} [Sink ω] [LawfulSink ω]

/-! ## Bytes held back -/

/-- Data arrives behind bytes that are held back: a first part of both is passed on to the sink, and the
rest is held back. -/
def Relayed (s : ω) (held data : ByteArray) (s' : ω) (held' : ByteArray) : Prop :=
  ∃ passed, held ++ data = passed ++ held' ∧ Took s passed s'

namespace Relayed

variable {s s' s'' : ω} {held held' held'' a b : ByteArray}

theorem hold (s : ω) (held a : ByteArray) : Relayed s held a s (held ++ a) :=
  ⟨.empty, by simp, nothing s⟩

theorem nothing (s : ω) (held : ByteArray) : Relayed s held .empty s held := by
  simpa using hold s held .empty

theorem pass (h : Took s held s') : Relayed s held .empty s' .empty := ⟨held, rfl, h⟩

theorem direct (h : Took s a s') : Relayed s .empty a s' .empty := ⟨a, by simp, h⟩

theorem trans (h : Relayed s held a s' held') (h' : Relayed s' held' b s'' held'') :
    Relayed s held (a ++ b) s'' held'' := by
  obtain ⟨p, hp, htook⟩ := h
  obtain ⟨q, hq, htook'⟩ := h'
  refine ⟨p ++ q, ?_, more htook htook'⟩
  rw [← ByteArray.append_assoc, hp, ByteArray.append_assoc, hq, ByteArray.append_assoc]

theorem trans_nothing (h : Relayed s held a s' held') (h' : Relayed s' held' .empty s'' held'') :
    Relayed s held a s'' held'' := by
  simpa using h.trans h'

theorem nothing_trans (h : Relayed s held .empty s' held') (h' : Relayed s' held' a s'' held'') :
    Relayed s held a s'' held'' := by
  simpa using h.trans h'

/-- With nothing held back before and after, the sink took the data. -/
theorem took (h : Relayed s .empty a s' .empty) : Took s a s' := by
  obtain ⟨passed, hpassed, htook⟩ := h
  simp only [ByteArray.empty_append, ByteArray.append_empty] at hpassed
  exact hpassed ▸ htook

end Relayed

/-! ## Buffers -/

namespace Buffered

variable {b b' : Buffered ω} {data : ByteArray} {outcome : Except FileError Unit}

theorem empty_spec (h : b.empty = (outcome, b')) :
    Relayed b.inner b.pending .empty b'.inner b'.pending ∧ (outcome = .ok () → b'.pending = .empty) := by
  rcases hdrain : Sink.drain b.inner b.pending with ⟨result, left, inner⟩
  rw [empty, hdrain] at h
  cases h
  obtain ⟨taken, hpending, htook, hok⟩ := Sink.drain_spec hdrain
  exact ⟨⟨taken, by rw [ByteArray.append_empty, hpending], htook⟩, hok⟩

/-- Data that fills the buffer alone is only taken when nothing is held back, so that it does not
overtake anything. -/
theorem take_ok {n : Nat} (hempty : capacity ≤ data.size → b.pending = .empty) (h : b.take data = (.ok n, b')) :
    n ≤ data.size ∧ Relayed b.inner b.pending (data.extract 0 n) b'.inner b'.pending := by
  unfold take at h
  split at h
  · rename_i hlarge
    rcases hwrite : Sink.write b.inner data with ⟨result, inner⟩
    rw [hwrite] at h
    cases h
    obtain ⟨hn, htook⟩ := write_ok hwrite
    refine ⟨hn, ?_⟩
    show Relayed _ _ _ _ b.pending
    rw [hempty hlarge]
    exact .direct htook
  · cases h
    refine ⟨Nat.le_refl _, ?_⟩
    rw [ByteArray.extract_zero_size]
    exact .hold b.inner b.pending data

theorem take_error {e : FileError} (h : b.take data = (.error e, b')) :
    Relayed b.inner b.pending .empty b'.inner b'.pending := by
  unfold take at h
  split at h
  · rcases hwrite : Sink.write b.inner data with ⟨result, inner⟩
    rw [hwrite] at h
    cases h
    exact ⟨.empty, by simp, write_error hwrite⟩
  · cases h

/-- The buffer once all that is held back may have been passed on, before it takes data. -/
theorem write_eq (b : Buffered ω) (data : ByteArray) :
    ∃ (outcome : Except FileError Unit) (b' : Buffered ω), Relayed b.inner b.pending .empty b'.inner b'.pending ∧
      (outcome = .ok () → capacity ≤ data.size → b'.pending = .empty) ∧
      Sink.write b data = match outcome with
        | .ok _ => b'.take data
        | .error e => (.error e, b') := by
  by_cases hfits : b.pending.size + data.size ≤ capacity
  · refine ⟨.ok (), b, .nothing b.inner b.pending, fun _ hlarge => ?_, if_pos hfits⟩
    exact ByteArray.size_eq_zero_iff.1 (by omega)
  · rcases hempty : b.empty with ⟨outcome, b'⟩
    obtain ⟨hrelayed, hok⟩ := empty_spec hempty
    refine ⟨outcome, b', hrelayed, fun h _ => hok h, ?_⟩
    simp only [Sink.write]
    rw [if_neg hfits, hempty]
    cases outcome <;> rfl

theorem flush_spec (h : Sink.flush b = (outcome, b')) :
    Relayed b.inner b.pending .empty b'.inner b'.pending ∧ (outcome = .ok () → b'.pending = .empty) := by
  rcases hempty : b.empty with ⟨result, b₁⟩
  obtain ⟨hrelayed, hok⟩ := empty_spec hempty
  simp only [Sink.flush, hempty] at h
  cases result with
  | error e =>
    cases h
    exact ⟨hrelayed, fun hok => by cases hok⟩
  | ok _ =>
    rcases hflush : Sink.flush b₁.inner with ⟨result, inner⟩
    simp only [hflush] at h
    cases h
    exact ⟨hrelayed.trans_nothing ⟨.empty, by simp, flush hflush⟩, fun _ => hok rfl⟩

instance : LawfulSink (Buffered ω) where
  Took b data b' := Relayed b.inner b.pending data b'.inner b'.pending
  nothing b := .nothing b.inner b.pending
  more h h' := h.trans h'
  write_ok {b b' data n} h := by
    obtain ⟨outcome, b₁, hrelayed, hempty, hwrite⟩ := write_eq b data
    rw [h] at hwrite
    cases outcome with
    | error e => cases hwrite
    | ok _ =>
      obtain ⟨hn, htake⟩ := take_ok (hempty rfl) hwrite.symm
      exact ⟨hn, hrelayed.nothing_trans htake⟩
  write_error {b b' data e} h := by
    obtain ⟨outcome, b₁, hrelayed, hempty, hwrite⟩ := write_eq b data
    rw [h] at hwrite
    cases outcome with
    | error e => cases hwrite; exact hrelayed
    | ok _ => exact hrelayed.trans_nothing (take_error hwrite.symm)
  flush h := (flush_spec h).1

end Buffered

/-! ## Counters -/

namespace Counting

theorem toNat_saturatingAdd (bytes : UInt64) (n : Nat) :
    (saturatingAdd bytes n).toNat = min (bytes.toNat + n) (UInt64.size - 1) := by
  have := bytes.toNat_lt_size
  unfold saturatingAdd
  split
  · rw [UInt64.toNat_ofNat_of_lt' (by assumption)]
    omega
  · rw [Nat.min_eq_right (by omega)]
    rfl

theorem saturatingAdd_zero (bytes : UInt64) : saturatingAdd bytes 0 = bytes := by
  have := bytes.toNat_lt_size
  apply UInt64.toNat_inj.1
  rw [toNat_saturatingAdd]
  omega

theorem saturatingAdd_add (bytes : UInt64) (m n : Nat) :
    saturatingAdd (saturatingAdd bytes m) n = saturatingAdd bytes (m + n) := by
  apply UInt64.toNat_inj.1
  simp only [toNat_saturatingAdd]
  omega

instance : LawfulSink (Counting ω) where
  Took c data c' := Took c.inner data c'.inner ∧ c'.bytes = saturatingAdd c.bytes data.size
  nothing c := ⟨nothing c.inner, (saturatingAdd_zero c.bytes).symm⟩
  more h h' := ⟨more h.1 h'.1, by rw [h'.2, h.2, saturatingAdd_add, ByteArray.size_append]⟩
  write_ok {c c' data n} h := by
    simp only [Sink.write] at h
    split at h <;> cases h
    rename_i hwrite
    obtain ⟨hn, htook⟩ := write_ok hwrite
    refine ⟨hn, htook, ?_⟩
    rw [ByteArray.size_extract, Nat.min_eq_left hn, Nat.sub_zero]
  write_error {c c' data e} h := by
    simp only [Sink.write] at h
    split at h <;> cases h
    rename_i hwrite
    exact ⟨write_error hwrite, (saturatingAdd_zero c.bytes).symm⟩
  flush {c c' outcome} h := by
    cases h
    exact ⟨flush rfl, (saturatingAdd_zero c.bytes).symm⟩

end Counting

end Fixtures
