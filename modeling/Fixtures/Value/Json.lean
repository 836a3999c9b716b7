/-
Nested values as JSON documents: mappings are objects with their entries in order.
-/
import Fixtures.Json.Printer
import Fixtures.Value.Basic

namespace Fixtures.Value

mutual

def toJson : Value → Json
  | integer n => .ofInt n.toInt
  | float x => .ofDouble x
  | text s => .string s
  | sequence items => .array (itemsToJson items)
  | mapping entries => .object (entriesToJson entries)

def itemsToJson : List Value → List Json
  | [] => []
  | v :: rest => v.toJson :: itemsToJson rest

def entriesToJson : List (String × Value) → List (String × Json)
  | [] => []
  | (k, v) :: rest => (k, v.toJson) :: entriesToJson rest

end

end Fixtures.Value

namespace Fixtures.Mapping

def toJson (m : Mapping) : Json := .object (Value.entriesToJson m)

end Fixtures.Mapping
