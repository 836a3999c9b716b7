/-
The reasons for which a fixture is not written.
-/
import Fixtures.FileSystem.Basic

namespace Fixtures

/-- The reasons for which rows are not written as CSV. -/
inductive CsvError where
  /-- A record has another number of fields than the ones before it. -/
  | unequalLengths (found expected : Nat)
  /-- A mapping is no row and no field. -/
  | mapping
  | file (e : FileError)
  deriving DecidableEq, Repr

/-- The reasons for which a fixture is not written. -/
inductive WriteError where
  | file (e : FileError)
  /-- The file failed while a JSON document was being written. -/
  | json (e : FileError)
  | csv (e : CsvError)
  deriving DecidableEq, Repr

namespace CsvError

def message : CsvError → String
  | unequalLengths found expected =>
    "CSV error: found record with " ++ toString found ++
      " fields, but the previous record has " ++ toString expected ++ " fields"
  | mapping => "CSV write error: serializing maps is not supported"
  | file e => e.message

end CsvError

namespace WriteError

def message : WriteError → String
  | file e => "io error: " ++ e.message
  | json e => "json error: " ++ e.message
  | csv e => "csv error: " ++ e.message

end WriteError

end Fixtures
