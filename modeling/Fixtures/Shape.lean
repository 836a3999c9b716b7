/-
The bounds of random nested values, and the check that every draw within them is possible.
-/
import Fixtures.Double.Arithmetic

namespace Fixtures

/-- The bounds of random nested values. Both ends of a range belong to it. -/
structure Shape where
  intMin : Int64 := 1
  intMax : Int64 := 100
  /-- The bounds of floating-point numbers before rounding; 1 and 100 unless stated. -/
  floatMin : Double := ⟨0x3ff0000000000000⟩
  floatMax : Double := ⟨0x4059000000000000⟩
  /-- The decimal places to which floating-point numbers are rounded. -/
  floatScale : UInt32 := 2
  /-- The length of texts and keys. -/
  textLength : UInt64 := 6
  /-- The bounds of the sizes of sequences and mappings. -/
  minChildren : UInt64 := 2
  maxChildren : UInt64 := 5
  deriving DecidableEq, Inhabited

/-- The ways in which bounds are unusable. -/
inductive ShapeError where
  | emptyIntRange
  | infiniteFloatBound
  | emptyFloatRange
  | infiniteFloatWidth
  | largeFloatScale
  | infiniteScaledBound
  | emptyText
  | emptyContainer
  | emptySizeRange
  deriving DecidableEq, Repr

/-- The largest number of decimal places. -/
def maxFloatScale : UInt32 := 15

namespace ShapeError

/-- What is wrong, in the terms of the settings. -/
def detail : ShapeError → String
  | emptyIntRange => "int_min must be <= int_max"
  | infiniteFloatBound => "float bounds must be finite"
  | emptyFloatRange => "float_min must be <= float_max"
  | infiniteFloatWidth => "float range width must be finite"
  | largeFloatScale => "float_scale must be <= 15"
  | infiniteScaledBound => "scaled float bounds overflow"
  | emptyText => "string_len must be > 0"
  | emptyContainer => "min_children must be > 0"
  | emptySizeRange => "min_children must be <= max_children"

def message (e : ShapeError) : String := "invalid shape: " ++ e.detail

end ShapeError

namespace Shape

/-- The larger magnitude of the two floating-point bounds. -/
def floatMagnitude (s : Shape) : Double :=
  if s.floatMin.abs.le s.floatMax.abs then s.floatMax.abs else s.floatMin.abs

/-- The first thing that is wrong with the bounds, if there is one. -/
def error? (s : Shape) : Option ShapeError :=
  if s.intMax < s.intMin then some .emptyIntRange
  else if !s.floatMin.isFinite || !s.floatMax.isFinite then some .infiniteFloatBound
  else if s.floatMax.lt s.floatMin then some .emptyFloatRange
  else if !(s.floatMax.sub s.floatMin).isFinite then some .infiniteFloatWidth
  else if maxFloatScale < s.floatScale then some .largeFloatScale
  else if !(s.floatMagnitude.mul (Double.scaleFactor s.floatScale)).isFinite then
    some .infiniteScaledBound
  else if s.textLength = 0 then some .emptyText
  else if s.minChildren = 0 then some .emptyContainer
  else if s.maxChildren < s.minChildren then some .emptySizeRange
  else none

end Shape

end Fixtures
