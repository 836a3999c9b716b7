/-
A sink that behaves as a plan says, offer by offer.
-/
import Fixtures.Output.Sink

namespace Fixtures

/-- What a planned sink does with an offer. -/
inductive Response where
  /-- Takes at most so many bytes. -/
  | accept (n : Nat)
  | interrupt
  | full
  deriving DecidableEq, Repr

/-- A sink with a plan for its next offers; after those it takes everything. -/
structure Scripted where
  plan : List Response
  flushFails : Bool
  /-- What it has taken. -/
  accepted : ByteArray
  deriving Inhabited

namespace Scripted

/-- Takes the first bytes of an offer. -/
def accept (s : Scripted) (n : Nat) (data : ByteArray) : Except FileError Nat × Scripted :=
  let taken := data.extract 0 (min n data.size)
  (.ok taken.size, { s with accepted := s.accepted ++ taken })

instance : Sink Scripted where
  write s data :=
    match s.plan with
    | [] => s.accept data.size data
    | .accept n :: plan => { s with plan := plan }.accept n data
    | .interrupt :: plan => (.error .interrupted, { s with plan := plan })
    | .full :: plan => (.error .storageFull, { s with plan := plan })
  flush s := (if s.flushFails then .error .brokenPipe else .ok (), s)
  patience s := s.plan.length

end Scripted

end Fixtures
