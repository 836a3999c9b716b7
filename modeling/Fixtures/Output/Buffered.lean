/-
A sink that collects small writes and passes them on in large ones.
-/
import Fixtures.Output.Sink

namespace Fixtures

/-- A sink with bytes that it holds back. -/
structure Buffered (ω : Type) where
  inner : ω
  pending : ByteArray

namespace Buffered

variable {ω : Type} [Sink ω]

/-- The number of bytes that are held back at most. -/
def capacity : Nat := 8192

/-- A buffer in front of a sink. -/
def start (inner : ω) : Buffered ω := ⟨inner, .empty⟩

/-- Passes on all that is held back. What could not be passed on is kept. -/
def empty (b : Buffered ω) : Except FileError Unit × Buffered ω :=
  let (outcome, left, inner) := Sink.drain b.inner b.pending
  (outcome, ⟨inner, left⟩)

/-- Holds back data, or passes it on at once if it fills the buffer alone. -/
def take (b : Buffered ω) (data : ByteArray) : Except FileError Nat × Buffered ω :=
  if capacity ≤ data.size then
    let (outcome, inner) := Sink.write b.inner data
    (outcome, { b with inner := inner })
  else (.ok data.size, { b with pending := b.pending ++ data })

instance : Sink (Buffered ω) where
  write b data :=
    if b.pending.size + data.size ≤ capacity then b.take data
    else match b.empty with
      | (.ok _, b) => b.take data
      | (.error e, b) => (.error e, b)
  flush b :=
    match b.empty with
    | (.ok _, b) =>
      let (outcome, inner) := Sink.flush b.inner
      (outcome, { b with inner := inner })
    | (.error e, b) => (.error e, b)
  patience b := Sink.patience b.inner

/-- The sink behind the buffer, after a last try to pass on what is held back. -/
def finish (b : Buffered ω) : ω := b.empty.2.inner

end Buffered

end Fixtures
