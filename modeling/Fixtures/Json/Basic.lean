/-
JSON documents as trees. Numbers are kept as numerals, and the members of an object keep their order
and may repeat a name.
-/
import Fixtures.Decimal.Shortest

namespace Fixtures

/-- A JSON document. -/
inductive Json where
  | null
  | bool (b : Bool)
  | number (n : Numeral)
  | string (s : String)
  | array (items : List Json)
  | object (members : List (String × Json))
  /-- A string, or an object with a name, that escapes half a surrogate pair: it stands for no text
  and can only be skipped. -/
  | unpaired
  deriving Inhabited

namespace Json

/-- JSON writes numbers positionally from 0.00001 up to but not including 10 to the power 16; a
positive exponent has its sign. -/
def floatStyle : FloatStyle := ⟨-5, 15, true⟩

def ofInt (n : Int) : Json := number (.ofInt n)

/-- A floating-point number; NaN and the infinities are null. -/
def ofDouble (x : Double) : Json := ((x.numeral? floatStyle).map number).getD null

/-- A value that may be missing; null if it is. -/
def ofOption {α : Type} (f : α → Json) (a : Option α) : Json := (a.map f).getD null

end Json

end Fixtures
