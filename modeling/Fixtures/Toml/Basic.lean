/-
TOML values, as documents to read values from.
-/
import Fixtures.Document
import Fixtures.Double.Basic

namespace Fixtures

/-- A TOML value. -/
inductive Toml where
  | text (s : String)
  | integer (n : Int)
  | float (x : Double)
  | bool (b : Bool)
  /-- A day, a time or an instant. -/
  | moment
  | array (items : List Toml)
  | table (entries : List (String × Toml))
  deriving Inhabited

namespace Toml

/-- A record is a table, or an array of its fields of which the first ones count. A moment counts as
a record that gives none of its fields; it is no other value of an option. -/
instance : Document Toml where
  fields? names
    | table entries => some entries
    | array items => some (names.zip items)
    | moment => some []
    | _ => none
  isNull _ := false
  integer?
    | integer n => some n
    | _ => none
  double?
    | float x => some x
    | integer n => some (.ofInt n)
    | _ => none
  text?
    | text s => some s
    | _ => none
  bool?
    | bool b => some b
    | _ => none

end Toml

end Fixtures
