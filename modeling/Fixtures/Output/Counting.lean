/-
A sink that counts the bytes which the sink behind it takes.
-/
import Fixtures.Output.Sink

namespace Fixtures

/-- A sink with the number of bytes that it took. -/
structure Counting (ω : Type) where
  inner : ω
  bytes : UInt64

namespace Counting

variable {ω : Type}

/-- The number of bytes after some more, at most the largest number of 64 bits. -/
def saturatingAdd (bytes : UInt64) (n : Nat) : UInt64 :=
  if bytes.toNat + n < UInt64.size then .ofNat (bytes.toNat + n) else 0xffffffffffffffff

/-- A sink that took no byte yet. -/
def start (inner : ω) : Counting ω := ⟨inner, 0⟩

instance [Sink ω] : Sink (Counting ω) where
  write c data :=
    match Sink.write c.inner data with
    | (.ok n, inner) => (.ok n, ⟨inner, saturatingAdd c.bytes n⟩)
    | (.error e, inner) => (.error e, ⟨inner, c.bytes⟩)
  flush c :=
    let (outcome, inner) := Sink.flush c.inner
    (outcome, ⟨inner, c.bytes⟩)
  patience c := Sink.patience c.inner

end Counting

end Fixtures
