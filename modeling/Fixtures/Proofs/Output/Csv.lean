/-
Blocks of CSV. Tokens are collected and passed on block by block without loss: what was put in is what
the sink took and what the last block still holds.
-/
import Fixtures.Output.Csv
import Fixtures.Proofs.Csv.Text
import Fixtures.Proofs.Output.Layers
import Fixtures.Proofs.Output.Text

namespace Fixtures.Csv.Blocks

open LawfulSink

variable {ω : Type} [Sink ω] [LawfulSink ω]

/-- The outcome of collecting data: after a success all of it was passed on or is held, and otherwise
the sink took something. -/
def Collected (b : Blocks ω) (data : ByteArray) : Except FileError Unit × Blocks ω → Prop
  | (.ok _, b') => Relayed b.sink b.pending data b'.sink b'.pending
  | (.error _, b') => ∃ taken, Took b.sink taken b'.sink

theorem Collected.after {b b' : Blocks ω} {a data : ByteArray} {r : Except FileError Unit × Blocks ω}
    (h : Relayed b.sink b.pending a b'.sink b'.pending) (h' : b'.Collected data r) : b.Collected (a ++ data) r := by
  rcases r with ⟨_ | _, b''⟩
  · obtain ⟨passed, -, htook⟩ := h
    obtain ⟨taken, htook'⟩ := h'
    exact ⟨_, more htook htook'⟩
  · exact h.trans h'

theorem pass_spec (b : Blocks ω) :
    b.Collected .empty b.pass ∧ ∀ {b' : Blocks ω}, b.pass = (.ok (), b') → b'.pending = .empty := by
  have hwrote := Sink.wrote_writeAll b.sink b.pending
  unfold pass
  rcases hwrite : Sink.writeAll b.sink b.pending with ⟨e | _, sink⟩ <;> rw [hwrite] at hwrote
  · exact ⟨hwrote, fun h => by cases h⟩
  · exact ⟨Relayed.pass hwrote, fun h => by cases h; rfl⟩

/-- The last try takes something, whatever comes of it. -/
theorem finish_spec (b : Blocks ω) : ∃ taken, Took b.sink taken b.finish := by
  obtain ⟨hpass, -⟩ := b.pass_spec
  rw [finish]
  rcases hp : b.pass with ⟨e | _, b'⟩ <;> rw [hp] at hpass
  · exact hpass
  · obtain ⟨passed, -, htook⟩ := hpass
    exact ⟨passed, htook⟩

theorem collected_putMark (b : Blocks ω) (data : ByteArray) : b.Collected data (b.putMark data) := by
  obtain ⟨hpass, hempty⟩ := b.pass_spec
  unfold putMark
  split
  · exact Relayed.hold b.sink b.pending data
  · rcases hp : b.pass with ⟨e | _, b'⟩ <;> rw [hp] at hpass
    · exact hpass
    · exact hpass.nothing_trans (Relayed.hold b'.sink b'.pending data)

/-- Each full block takes a byte of the text, but for the first, which may have been full before. -/
theorem collected_putText : ∀ (fuel : Nat) (b : Blocks ω) (data : ByteArray),
    data.size + (if capacity ≤ b.pending.size then 1 else 0) < fuel → b.Collected data (putText fuel b data)
  | 0, _, _, h => absurd h (Nat.not_lt_zero _)
  | fuel + 1, b, data, h => by
    rw [putText]
    split
    · exact Relayed.hold b.sink b.pending data
    · rename_i hroom
      -- the block is filled up and passed on, and the rest goes to an empty one
      have hsplit : data = data.extract 0 (capacity - b.pending.size) ++
          data.extract (capacity - b.pending.size) data.size := by
        rw [ByteArray.extract_append_extract, Nat.max_eq_right (by omega)]
        simp
      have hhold := Relayed.hold b.sink b.pending (data.extract 0 (capacity - b.pending.size))
      obtain ⟨hpass, hempty⟩ := pass_spec { b with pending := b.pending ++ data.extract 0 (capacity - b.pending.size) }
      rcases hp : pass { b with pending := b.pending ++ data.extract 0 (capacity - b.pending.size) } with
        ⟨e | _, b'⟩ <;> rw [hp] at hpass
      · exact hpass
      · simp only
        rw [hsplit]
        refine Collected.after (hhold.trans_nothing hpass) ?_
        rw [← hsplit]
        refine collected_putText fuel b' _ ?_
        rw [hempty hp, ByteArray.size_extract, ByteArray.size_empty, if_neg (by decide)]
        split at h <;> omega

theorem collected_put (b : Blocks ω) (t : Token) : b.Collected (encodeText t.chars) (b.put t) := by
  cases t with
  | mark cs => exact b.collected_putMark (encodeText cs)
  | text cs => exact collected_putText _ b (encodeText cs) (by split <;> omega)

theorem collected_putAll : ∀ (b : Blocks ω) (tokens : List Token),
    b.Collected (encodeText (charsOf tokens)) (b.putAll tokens)
  | b, [] => Relayed.nothing b.sink b.pending
  | b, t :: rest => by
    have hfirst := b.collected_put t
    rw [putAll, charsOf_cons, encodeText_append]
    rcases hput : b.put t with ⟨e | _, b'⟩ <;> rw [hput] at hfirst
    · exact hfirst
    · exact .after hfirst (collected_putAll b' rest)

end Fixtures.Csv.Blocks
