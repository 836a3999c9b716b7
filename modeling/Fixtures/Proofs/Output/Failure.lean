/-
Writes that fail. Without hitches an output whose path leads to a file takes all that it is given, so a write of a
content fails only where its path cannot be opened or leads to a device that takes no byte. Neither changes a
node that was there: a write that fails may have made directories, and nothing else. After a hitch the file may
hold a part of the content.
-/
import Fixtures.Proofs.Output.Rows

namespace Fixtures

open LawfulSink ReadySink

/-! ## Sequences of writes -/

section Sinks

variable {ω : Type} [Sink ω] [ReadySink ω]

end Sinks

/-! ## Outcomes of outputs -/

namespace FileOutput

variable {p : Path} {fs fs' : FileSystem} {o o' : FileOutput} {f : OpenFile}
  {r : Except WriteError UInt64 × FileSystem}

/-- What comes of writing to the output of an open file: the file has taken something in any case, and if it
was ready the write has not failed. -/
structure Yields (f : OpenFile) (r : Except WriteError UInt64 × FileSystem) : Prop where
  took : ∃ taken f', Took f taken f' ∧ r.2 = f'.files
  ready : Ready f → ∃ n, r.1 = .ok n

end FileOutput

open FileOutput

/-! ## Writers -/

variable {p : Path} {fs fs' fs'' : FileSystem} {f : OpenFile} {e : WriteError}

end Fixtures
