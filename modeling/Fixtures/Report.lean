/-
The report on a fixture that was written.
-/
import Fixtures.FileSystem.Path
import Fixtures.Json.Basic
import Fixtures.Kind

namespace Fixtures

/-- What was written for one kind. -/
structure Report where
  kind : Kind
  path : Path
  /-- The seed of the run. -/
  seed : UInt64
  /-- The entries of the nested document, or the records. -/
  records : UInt64
  bytesWritten : UInt64
  durationMs : UInt64
  deriving DecidableEq, Inhabited

namespace Report

/-- The line that announces a fixture. -/
def line (r : Report) : String := r.kind.label ++ " file generated: " ++ r.path.display

/-- The document of a report, unless its path is no text. -/
def toJson? (r : Report) : Option Json := do
  return .object [
    ("kind", .string r.kind.serialName),
    ("path", .string (← r.path.text?)),
    ("seed", .ofInt r.seed.toNat),
    ("records", .ofInt r.records.toNat),
    ("bytes_written", .ofInt r.bytesWritten.toNat),
    ("duration_ms", .ofInt r.durationMs.toNat)]

end Report

end Fixtures
