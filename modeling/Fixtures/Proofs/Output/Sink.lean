/-
Sinks that give account of their bytes. `Took s data s'` says that the sink `s` became `s'` by taking
exactly `data`; what this means is up to the sink. From the accounts of single offers follow those of the
loop that repeats offers, of whole writes and of sequences of chunks.
-/
import Fixtures.Output.Sink

namespace Fixtures

/-- A sink that takes from an offer the bytes that it says, and nothing when it fails or is flushed. -/
class LawfulSink (ω : Type) [Sink ω] where
  Took : ω → ByteArray → ω → Prop
  nothing (s : ω) : Took s .empty s
  more {s s' s'' : ω} {a b : ByteArray} : Took s a s' → Took s' b s'' → Took s (a ++ b) s''
  write_ok {s s' : ω} {data : ByteArray} {n : Nat} : Sink.write s data = (.ok n, s') →
    n ≤ data.size ∧ Took s (data.extract 0 n) s'
  write_error {s s' : ω} {data : ByteArray} {e : FileError} : Sink.write s data = (.error e, s') →
    Took s .empty s'
  flush {s s' : ω} {outcome : Except FileError Unit} : Sink.flush s = (outcome, s') → Took s .empty s'

namespace LawfulSink

variable {ω : Type} [Sink ω] [LawfulSink ω] {s s' s'' : ω} {a b : ByteArray}

theorem Took.trans_nothing (h : Took s a s') (h' : Took s' .empty s'') : Took s a s'' := by
  simpa using more h h'

theorem Took.nothing_trans (h : Took s .empty s') (h' : Took s' a s'') : Took s a s'' := by
  simpa using more h h'

end LawfulSink

namespace Sink

open LawfulSink

variable {ω : Type} [Sink ω] [LawfulSink ω] {s s' : ω} {data : ByteArray}

/-! ## Repeated offers -/

/-- What is taken and what is left make up the data, and nothing is left after a success. -/
theorem drainWithin_spec : ∀ (fuel : Nat) {s s' : ω} {data left : ByteArray} {outcome : Except FileError Unit},
    drainWithin fuel s data = (outcome, left, s') →
      ∃ taken, data = taken ++ left ∧ Took s taken s' ∧ (outcome = .ok () → left = .empty)
  | 0, s, _, data, _, _, h => by
    cases h
    refine ⟨.empty, by simp, nothing s, fun hok => ?_⟩
    split at hok
    · exact ByteArray.size_eq_zero_iff.1 ‹_›
    · cases hok
  | fuel + 1, s, s', data, left, outcome, h => by
    rw [drainWithin] at h
    split at h
    · cases h
      exact ⟨.empty, by simp, nothing s, fun _ => ByteArray.size_eq_zero_iff.1 ‹_›⟩
    · -- an offer of which nothing is taken ends the loop, an interrupted one is repeated
      split at h
      · rename_i hwrite
        cases h
        obtain ⟨-, htook⟩ := write_ok hwrite
        exact ⟨.empty, by simp, by simpa using htook, fun hok => by cases hok⟩
      · rename_i n sink hwrite
        obtain ⟨hn, htook⟩ := write_ok hwrite
        obtain ⟨taken, hdata, hrest, hok⟩ := drainWithin_spec fuel h
        refine ⟨data.extract 0 (n + 1) ++ taken, ?_, more htook hrest, hok⟩
        rw [ByteArray.append_assoc, ← hdata, ByteArray.extract_append_extract, Nat.max_eq_right hn]
        simp
      · rename_i sink hwrite
        obtain ⟨taken, hdata, hrest, hok⟩ := drainWithin_spec fuel h
        exact ⟨taken, hdata, (write_error hwrite).nothing_trans hrest, hok⟩
      · rename_i sink hwrite
        cases h
        exact ⟨.empty, by simp, write_error hwrite, fun hok => by cases hok⟩

theorem drain_spec {left : ByteArray} {outcome : Except FileError Unit} (h : drain s data = (outcome, left, s')) :
    ∃ taken, data = taken ++ left ∧ Took s taken s' ∧ (outcome = .ok () → left = .empty) :=
  drainWithin_spec _ h

omit [LawfulSink ω] in
/-- Nothing is offered when there is nothing. -/
theorem drain_empty (s : ω) : drain s .empty = (.ok (), .empty, s) := by
  unfold drain
  cases (ByteArray.empty.size + patience s) <;> rfl

end Sink

/-! ## Writes -/

/-- The outcome of writing data: after a success the sink took all of it, and otherwise something. -/
def Wrote {ε ω : Type} [Sink ω] [LawfulSink ω] (s : ω) (data : ByteArray) : Except ε Unit × ω → Prop
  | (.ok _, s') => LawfulSink.Took s data s'
  | (.error _, s') => ∃ taken, LawfulSink.Took s taken s'

/-- Chunks one after the other. -/
def joined (chunks : List ByteArray) : ByteArray := chunks.foldr (· ++ ·) .empty

namespace Sink

open LawfulSink

variable {ω : Type} [Sink ω] [LawfulSink ω]

theorem wrote_writeAll (s : ω) (data : ByteArray) : Wrote s data (writeAll s data) := by
  unfold writeAll
  rcases hdrain : drain s data with ⟨e | _, left, s'⟩ <;> obtain ⟨taken, rfl, htook, hok⟩ := drain_spec hdrain
  · exact ⟨taken, htook⟩
  · rw [hok rfl, ByteArray.append_empty]
    exact htook

theorem wrote_writeChunks : ∀ (s : ω) (chunks : List ByteArray), Wrote s (joined chunks) (writeChunks s chunks)
  | s, [] => nothing s
  | s, chunk :: rest => by
    have hfirst := wrote_writeAll s chunk
    rw [writeChunks]
    split
    · rename_i s' hwrite
      rw [hwrite] at hfirst
      have hrest := wrote_writeChunks s' rest
      rcases hwrites : writeChunks s' rest with ⟨e | _, s''⟩ <;> rw [hwrites] at hrest
      · obtain ⟨taken, htook⟩ := hrest
        exact ⟨_, more hfirst htook⟩
      · exact more hfirst hrest
    · rename_i hwrite
      rw [hwrite] at hfirst
      exact hfirst

end Sink

end Fixtures
