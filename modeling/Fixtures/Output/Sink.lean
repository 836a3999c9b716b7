/-
Sinks that take bytes, perhaps fewer than offered, and the loop that offers the rest again.
-/
import Fixtures.FileSystem.Basic

namespace Fixtures

/-- A sink of bytes. -/
class Sink (ω : Type) where
  /-- Offers bytes; gives how many of them, from the first on, were taken. -/
  write : ω → ByteArray → Except FileError Nat × ω
  /-- Passes on what the sink holds back. -/
  flush : ω → Except FileError Unit × ω
  /-- A bound on how many more times an offer can be interrupted. -/
  patience : ω → Nat

namespace Sink

variable {ω : Type} [Sink ω]

/-- Offers data until all is taken or an offer fails for good, within a number of offers; gives what
was not taken besides the outcome. An interrupted offer is repeated. -/
def drainWithin : (fuel : Nat) → ω → ByteArray → Except FileError Unit × ByteArray × ω
  | 0, sink, data => (if data.size = 0 then .ok () else .error .interrupted, data, sink)
  | fuel + 1, sink, data =>
    if data.size = 0 then (.ok (), data, sink)
    else match write sink data with
      | (.ok 0, sink) => (.error .writeZero, data, sink)
      | (.ok (n + 1), sink) => drainWithin fuel sink (data.extract (n + 1) data.size)
      | (.error .interrupted, sink) => drainWithin fuel sink data
      | (.error e, sink) => (.error e, data, sink)

/-- The same with as many offers as it can take: each one takes a byte or uses up patience. -/
def drain (sink : ω) (data : ByteArray) : Except FileError Unit × ByteArray × ω :=
  drainWithin (data.size + patience sink) sink data

/-- Writes all data. -/
def writeAll (sink : ω) (data : ByteArray) : Except FileError Unit × ω :=
  let (outcome, _, sink) := drain sink data
  (outcome, sink)

/-- Writes chunks of data one after the other. -/
def writeChunks : ω → List ByteArray → Except FileError Unit × ω
  | sink, [] => (.ok (), sink)
  | sink, chunk :: rest =>
    match writeAll sink chunk with
    | (.ok _, sink) => writeChunks sink rest
    | (.error e, sink) => (.error e, sink)

end Sink

end Fixtures
