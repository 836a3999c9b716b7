/-
Random nested values: each is drawn from the variants that the depth left allows, with the bounds of
a shape. At the depth limit only scalars are drawn, so the drawing ends for all words.
-/
import Fixtures.Random.Text
import Fixtures.Shape
import Fixtures.Value.Basic

namespace Fixtures

namespace Draw

variable {σ : Type} [WordSource σ]

/-- A text or key of the length that the shape gives. -/
def shapeText (shape : Shape) : Draw σ String := do
  return String.ofList (← lowercase shape.textLength.toNat)

/-- The size of a sequence or mapping. -/
def childCount (shape : Shape) : Draw σ Nat :=
  size shape.minChildren.toNat shape.maxChildren.toNat

/-- A key, and a value drawn after it. -/
def entry (shape : Shape) (value : Draw σ Value) : Draw σ (String × Value) := do
  let key ← shapeText shape
  return (key, ← value)

/-- A value of a variant; `child` draws the values within it. -/
def ofVariant (shape : Shape) (child : Draw σ Value) : Variant → Draw σ Value
  | .integer => do return .integer (.ofInt (← integer .wide shape.intMin.toInt shape.intMax.toInt))
  | .float => do return .float (← roundedFloat shape.floatMin shape.floatMax shape.floatScale)
  | .text => do return .text (← shapeText shape)
  | .sequence => do
    let count ← childCount shape
    return .sequence (← list Value.bytes count child)
  | .mapping => do
    let count ← childCount shape
    return .mapping (← list Mapping.entryBytes count (entry shape child))

/-- A value with at most `levels` levels below it. -/
def valueWithin (shape : Shape) : (levels : Nat) → Draw σ Value
  | 0 => do
    let variant ← choose? Variant.scalars
    ofVariant shape (pure default) (variant.getD .integer)
  | levels + 1 => do
    let variant ← choose? Variant.all
    ofVariant shape (valueWithin shape levels) (variant.getD .integer)

/-- A value for a place at a depth; from `maxDepth` on it is a scalar. -/
def value (shape : Shape) (depth maxDepth : Nat) : Draw σ Value :=
  valueWithin shape (maxDepth - depth)

/-- A mapping of random keys to values at depth 1. -/
def document (shape : Shape) (maxDepth keys : Nat) : Draw σ Mapping :=
  list Mapping.entryBytes keys (entry shape (value shape 1 maxDepth))

end Draw

end Fixtures
