/-
The floating-point numbers of random nested values. A number is drawn between the bounds of the shape and rounded to
decimal places afterwards, so it lies between the rounded bounds: the numbers on the first and on the last word are the
least and the greatest of all. They lie beyond the bounds themselves where rounding leads out of them.

The induction is on the levels that are left below a value.
-/
import Fixtures.Proofs.Draw.Float
import Fixtures.Proofs.Value.Conformance
import Fixtures.Proofs.Value.Reading

namespace Fixtures

/-! ## Bounds of a shape -/

namespace Shape

/-- The least floating-point number that is drawn. -/
def leastFloat (s : Shape) : Double := s.floatMin.roundTo s.floatScale

/-- The greatest floating-point number that is drawn. -/
def greatestFloat (s : Shape) : Double := (Double.partWay s.floatMin s.floatMax .lastPart).roundTo s.floatScale

variable {shape : Shape} {x y low high : Double} {w : UInt64}

theorem Usable.isRange (h : shape.Usable) : Double.IsRange shape.floatMin shape.floatMax where
  low_finite := h.floatMin_finite
  high_finite := h.floatMax_finite
  width_finite := h.width_finite
  le := (Double.le_iff h.floatMin_finite h.floatMax_finite).1 h.float_le

/-- What lies within the bounds can be scaled. -/
theorem Usable.isFinite_scaled (h : shape.Usable) (hx : Double.IsIn shape.floatMin shape.floatMax x) :
    (x.mul (Double.scaleFactor shape.floatScale)).isFinite = true := by
  have hlow := (Double.le_iff h.floatMin_finite hx.finite).1 hx.low_le
  have hhigh := (Double.le_iff hx.finite h.floatMax_finite).1 hx.le_high
  have hmin := Double.isFinite_abs h.floatMin_finite
  have hmax := Double.isFinite_abs h.floatMax_finite
  have hlarger : shape.floatMagnitude.isFinite = true ∧
      |shape.floatMagnitude.value| = max |shape.floatMin.value| |shape.floatMax.value| := by
    unfold Shape.floatMagnitude
    split
    · rename_i hle
      rw [Double.le_iff hmin hmax, Double.value_abs, Double.value_abs] at hle
      rw [Double.value_abs, abs_abs, max_eq_right hle]
      exact ⟨hmax, rfl⟩
    · rename_i hle
      rw [Double.le_iff hmin hmax, Double.value_abs, Double.value_abs, not_le] at hle
      rw [Double.value_abs, abs_abs, max_eq_left hle.le]
      exact ⟨hmin, rfl⟩
  refine (Double.isFactor_scaleFactor h.scale_le).isFinite_mul hx.finite hlarger.1 ?_ h.scaled_finite
  rw [hlarger.2]
  exact abs_le_max_abs_abs hlow hhigh

/-- Rounding keeps the order within the bounds. -/
theorem Usable.roundTo_le (h : shape.Usable) (hx : Double.IsIn shape.floatMin shape.floatMax x)
    (hy : Double.IsIn shape.floatMin shape.floatMax y) (hle : x.value ≤ y.value) :
    (x.roundTo shape.floatScale).le (y.roundTo shape.floatScale) = true := by
  have hxs := h.isFinite_scaled hx
  have hys := h.isFinite_scaled hy
  rw [Double.le_iff (Double.isFinite_roundTo h.scale_le hxs) (Double.isFinite_roundTo h.scale_le hys)]
  exact Double.roundTo_mono h.scale_le hx.finite hy.finite hxs hys hle

theorem Usable.isIn_floatMin (h : shape.Usable) : Double.IsIn shape.floatMin shape.floatMax shape.floatMin where
  finite := h.floatMin_finite
  low_le := (Double.le_iff h.floatMin_finite h.floatMin_finite).2 le_rfl
  le_high := h.float_le

theorem Usable.isIn_floatMax (h : shape.Usable) : Double.IsIn shape.floatMin shape.floatMax shape.floatMax where
  finite := h.floatMax_finite
  low_le := h.float_le
  le_high := (Double.le_iff h.floatMax_finite h.floatMax_finite).2 le_rfl

/-- The number drawn on a word lies between the least and the greatest one. -/
theorem Usable.isIn_rounded (h : shape.Usable) (w : UInt64) :
    Double.IsIn shape.leastFloat shape.greatestFloat
      ((Double.partWay shape.floatMin shape.floatMax (.ofWord w)).roundTo shape.floatScale) := by
  have hw := Double.isPart_ofWord w
  have hin := h.isRange.isIn_partWay hw
  have hlast := h.isRange.isIn_partWay (Double.isPart_ofWord 0xffffffffffffffff)
  refine ⟨Double.isFinite_roundTo h.scale_le (h.isFinite_scaled hin), h.roundTo_le h.isIn_floatMin hin ?_,
    h.roundTo_le hin hlast ?_⟩
  · exact (Double.le_iff h.floatMin_finite hin.finite).1 hin.low_le
  · exact h.isRange.partWay_mono hw (Double.isPart_ofWord _) (hw.le.trans_eq Double.value_lastPart.symm)

/-- The greatest number that is drawn is no more than the rounded upper bound. -/
theorem Usable.greatestFloat_le (h : shape.Usable) :
    shape.greatestFloat.le (shape.floatMax.roundTo shape.floatScale) = true := by
  have hlast := h.isRange.isIn_partWay (Double.isPart_ofWord 0xffffffffffffffff)
  exact h.roundTo_le hlast h.isIn_floatMax ((Double.le_iff hlast.finite h.floatMax_finite).1 hlast.le_high)

end Shape

namespace Draw

variable {σ : Type} [WordSource σ] {shape : Shape} {child : Draw σ Value} {P : Double → Prop}

/-! ## Floating-point numbers of a draw -/

section

variable (hfloat : (roundedFloat shape.floatMin shape.floatMax shape.floatScale : Draw σ Double).Ends P fun _ => True)

include hfloat

theorem ends_ofVariant_floats (hchild : child.Ends (fun v => ∀ x ∈ v.floats, P x) fun _ => True)
    (variant : Variant) : (ofVariant shape child variant).Ends (fun v => ∀ x ∈ v.floats, P x) fun _ => True := by
  cases variant with
  | integer => exact (ends_any _).map fun n _ x hx => absurd hx List.not_mem_nil
  | float => exact hfloat.map fun x hx y hy => by rwa [List.mem_singleton.1 hy]
  | text => exact (ends_any _).map fun t _ x hx => absurd hx List.not_mem_nil
  | sequence =>
    refine (ends_any _).bind fun count _ => hchild.list_holds.map fun items hitems x hx => ?_
    obtain ⟨v, hv, hx⟩ := Value.mem_itemsFloats.1 hx
    exact hitems.2 v hv x hx
  | mapping =>
    have hentry : (entry shape child).Ends (fun e => ∀ x ∈ e.2.floats, P x) fun _ => True :=
      (ends_any _).bind fun _ _ => hchild.map fun _ hv => hv
    refine (ends_any _).bind fun count _ => hentry.list_holds.map fun entries hentries x hx => ?_
    obtain ⟨e, he, hx⟩ := Value.mem_entriesFloats.1 hx
    exact hentries.2 e he x hx

theorem ends_valueWithin_floats :
    ∀ levels, (valueWithin shape levels : Draw σ Value).Ends (fun v => ∀ x ∈ v.floats, P x) fun _ => True
  | 0 => (ends_any _).bind fun _ _ =>
      ends_ofVariant_floats hfloat (ends_pure fun _ hx => absurd hx List.not_mem_nil) _
  | levels + 1 => (ends_any _).bind fun _ _ =>
      ends_ofVariant_floats hfloat (ends_valueWithin_floats levels) _

theorem ends_document_floats (maxDepth keys : Nat) :
    (document shape maxDepth keys : Draw σ Mapping).Ends (fun m => ∀ x ∈ Value.entriesFloats m, P x) fun _ => True := by
  have hentry : (entry shape (value shape 1 maxDepth) : Draw σ (String × Value)).Ends
      (fun e => ∀ x ∈ e.2.floats, P x) fun _ => True :=
    (ends_any _).bind fun _ _ => (ends_valueWithin_floats hfloat _).map fun _ hv => hv
  refine hentry.list_holds.mono (fun m hm x hx => ?_) fun _ he => he
  obtain ⟨e, he, hx⟩ := Value.mem_entriesFloats.1 hx
  exact hm.2 e he x hx

end

/-- A scalar may be any number that is drawn. -/
theorem reaches_value_float (h : shape.Usable) (w : UInt64) :
    (value shape 1 1 : Draw σ Value).Reaches
      (.float ((Double.partWay shape.floatMin shape.floatMax (.ofWord w)).roundTo shape.floatScale)) :=
  (reaches_choose? (a := Variant.float) (by decide) (by decide)).bind ((reaches_roundedFloat h.isRange w).map rfl)

/-! ## The range of all draws -/

/-- Every floating-point number in a value or document that is drawn, from any tape, at any depth and for any number of
keys, is finite and lies in a range. -/
def FloatsWithin (shape : Shape) (low high : Double) : Prop :=
  (∀ depth maxDepth, (value shape depth maxDepth : Draw Tape Value).Ends
    (fun v => ∀ x ∈ v.floats, Double.IsIn low high x) fun _ => True) ∧
  ∀ maxDepth keys, (document shape maxDepth keys : Draw Tape Mapping).Ends
    (fun m => ∀ x ∈ Value.entriesFloats m, Double.IsIn low high x) fun _ => True

theorem floatsWithin_of_bounds (h : shape.Usable) (hlow : low.le shape.leastFloat = true)
    (hhigh : shape.greatestFloat.le high = true) : FloatsWithin shape low high := by
  have hfloat : (roundedFloat shape.floatMin shape.floatMax shape.floatScale : Draw Tape Double).Ends
      (Double.IsIn low high) fun _ => True := by
    refine (ends_partWay h.isRange).mono (fun x hx => ?_) fun _ he => he
    obtain ⟨w, rfl⟩ := hx
    have hin := h.isIn_rounded w
    exact ⟨hin.finite, Double.le_of_le_of_le hlow hin.low_le, Double.le_of_le_of_le hin.le_high hhigh⟩
  exact ⟨fun depth maxDepth => ends_valueWithin_floats hfloat _, ends_document_floats hfloat⟩

theorem FloatsWithin.isIn (h : FloatsWithin shape low high) (hu : shape.Usable) (w : UInt64) :
    Double.IsIn low high ((Double.partWay shape.floatMin shape.floatMax (.ofWord w)).roundTo shape.floatScale) :=
  (reaches_value_float hu w).holds (h.1 1 1) _ (List.mem_singleton.2 rfl)

/-- With a shape that passes its check, the floating-point numbers lie between the rounded bounds. They lie in another
range if and only if the least and the greatest one do; so they lie within the bounds of the shape just in case rounding
does not lead out of these. -/
theorem floatsWithin_iff (hshape : shape.error? = none) :
    FloatsWithin shape (shape.floatMin.roundTo shape.floatScale) (shape.floatMax.roundTo shape.floatScale) ∧
      ∀ low high : Double,
        FloatsWithin shape low high ↔ low.le shape.leastFloat = true ∧ shape.greatestFloat.le high = true := by
  have hu := Shape.error?_eq_none_iff.1 hshape
  refine ⟨floatsWithin_of_bounds hu ?_ hu.greatestFloat_le, fun low high => ⟨fun hwithin => ?_, fun h => ?_⟩⟩
  · exact hu.roundTo_le hu.isIn_floatMin hu.isIn_floatMin le_rfl
  · -- both ends are drawn, on the first and on the last word
    have hfirst := hu.isRange.value_partWay_zero (Double.isPart_ofWord 0) Double.value_ofWord_zero
    have hzero := hu.isRange.isIn_partWay (Double.isPart_ofWord 0)
    exact ⟨Double.le_of_le_of_le (hwithin.isIn hu 0).low_le (hu.roundTo_le hzero hu.isIn_floatMin hfirst.le),
      (hwithin.isIn hu 0xffffffffffffffff).le_high⟩
  · exact floatsWithin_of_bounds hu h.1 h.2

/-- The default bounds, which have no more decimal places than the scale. -/
theorem floatsWithin_iff_default :
    let shape : Shape := {}
    shape.error? = none ∧ FloatsWithin shape shape.floatMin shape.floatMax := by
  intro shape
  have hshape : shape.error? = none := by decide +kernel
  exact ⟨hshape, ((floatsWithin_iff hshape).2 _ _).2 ⟨by decide +kernel, by decide +kernel⟩⟩

/-- Between a half and a half, without decimal places, a one is drawn. -/
theorem floats_beyond_bounds :
    let shape : Shape := { floatMin := ⟨0x3fe0000000000000⟩, floatMax := ⟨0x3fe0000000000000⟩, floatScale := 0 }
    shape.error? = none ∧
      ((value shape 1 1 : Draw Tape Value).run ⟨fun _ => 0x80000000, 0⟩).1.toOption.bind Value.float? =
        some ⟨0x3ff0000000000000⟩ ∧
      ¬ FloatsWithin shape shape.floatMin shape.floatMax := by
  intro shape
  have hshape : shape.error? = none := by decide +kernel
  refine ⟨hshape, by decide +kernel, fun hwithin => ?_⟩
  have hle := (hwithin.isIn (Shape.error?_eq_none_iff.1 hshape) 0).le_high
  revert hle
  decide +kernel

end Draw

end Fixtures
