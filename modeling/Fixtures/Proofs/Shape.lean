/-
What the check of a shape promises: a shape without error is exactly one whose ranges are not empty,
whose floating-point bounds are finite, ordered and not too far apart, and whose texts and containers
are not empty.
-/
import Fixtures.Proofs.Double.Fields
import Fixtures.Shape

namespace Fixtures

namespace Double

/-- Finite numbers are ordered one way or the other. -/
theorem lt_eq_not_le {x y : Double} (hx : x.isFinite = true) (hy : y.isFinite = true) :
    x.lt y = !y.le x := by
  simp only [lt, le, not_isNaN_of_isFinite hx, not_isNaN_of_isFinite hy, Bool.not_false, Bool.true_and]
  rw [Bool.eq_iff_iff]
  simp

end Double

namespace Shape

/-- The bounds with which every draw is possible. -/
structure Usable (s : Shape) : Prop where
  int_le : s.intMin ≤ s.intMax
  floatMin_finite : s.floatMin.isFinite = true
  floatMax_finite : s.floatMax.isFinite = true
  float_le : s.floatMin.le s.floatMax = true
  width_finite : (s.floatMax.sub s.floatMin).isFinite = true
  scale_le : s.floatScale ≤ maxFloatScale
  scaled_finite : (s.floatMagnitude.mul (Double.scaleFactor s.floatScale)).isFinite = true
  text_ne : s.textLength ≠ 0
  children_ne : s.minChildren ≠ 0
  children_le : s.minChildren ≤ s.maxChildren

theorem error?_eq_none_iff {s : Shape} : s.error? = none ↔ s.Usable := by
  constructor
  · intro h
    unfold error? at h
    split at h; · cases h
    rename_i hInt
    split at h; · cases h
    rename_i hFinite
    split at h; · cases h
    rename_i hFloat
    split at h; · cases h
    rename_i hWidth
    split at h; · cases h
    rename_i hScale
    split at h; · cases h
    rename_i hScaled
    split at h; · cases h
    rename_i hText
    split at h; · cases h
    rename_i hMin
    split at h; · cases h
    rename_i hChildren
    simp only [Bool.or_eq_true, Bool.not_eq_true', not_or, Bool.not_eq_false] at hFinite hWidth hScaled
    rw [Double.lt_eq_not_le hFinite.2 hFinite.1] at hFloat
    exact {
      int_le := Int64.not_lt.1 hInt
      floatMin_finite := hFinite.1
      floatMax_finite := hFinite.2
      float_le := by simpa using hFloat
      width_finite := hWidth
      scale_le := UInt32.not_lt.1 hScale
      scaled_finite := hScaled
      text_ne := hText
      children_ne := hMin
      children_le := UInt64.not_lt.1 hChildren }
  · intro h
    have hFloat := Double.lt_eq_not_le h.floatMax_finite h.floatMin_finite
    rw [h.float_le] at hFloat
    simp [error?, Int64.not_lt.2 h.int_le, h.floatMin_finite, h.floatMax_finite, hFloat, h.width_finite,
      UInt32.not_lt.2 h.scale_le, h.scaled_finite, h.text_ne, h.children_ne, UInt64.not_lt.2 h.children_le]

end Shape

end Fixtures
