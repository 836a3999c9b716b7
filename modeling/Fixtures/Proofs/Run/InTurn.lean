/-
Runs of all kinds, without a log. They are runs of single kinds in turn, each on the files that the one before
left, up to the first that fails: at whatever time each of them takes place, and wherever the paths lead. If a
kind fails, those before it are written and those after it are not tried.
-/
import Fixtures.Proofs.Run.Fixture
import Fixtures.Proofs.Run.LastWriter

namespace Fixtures

namespace Run

variable {o : Options} {seed : UInt64} {stop : DateTime} {k : Kind} {kinds : List Kind} {s s' : Session}
  {surroundings : Kind → Session} {fs fs' : FileSystem} {e : RunError}

end Run

end Fixtures
