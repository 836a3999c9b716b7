/-
Rounding to decimal places. A number is scaled by a power of ten, rounded to a whole number and scaled back; each of the
three steps keeps the order of numbers, and a number stays finite if it can be scaled at all.
-/
import Fixtures.Proofs.Double.Arithmetic

namespace Fixtures.Double

variable {x y f : Double} {r r' : ℚ} {scale : UInt32}

/-! ## Magnitudes -/

/-- The magnitude of a rounded rational grows with that of the rational. -/
theorem natAbs_nearestPlace_mono (h : |r| ≤ |r'|) : (nearestPlace r).natAbs ≤ (nearestPlace r').natAbs := by
  have hmagnitude (r : ℚ) : (nearestPlace r).natAbs = nearestMagnitude r.num.natAbs r.den := by
    unfold nearestPlace
    split <;> omega
  rw [hmagnitude, hmagnitude]
  refine nearestMagnitude_mono r.den_pos r'.den_pos ?_
  rwa [natAbs_num_div_den, natAbs_num_div_den]

theorem isFinite_of_abs_le (hx : x.place = nearestPlace r) (hy : y.place = nearestPlace r') (h : |r| ≤ |r'|)
    (hfinite : y.isFinite = true) : x.isFinite = true := by
  have hmono := natAbs_nearestPlace_mono h
  rw [← hx, ← hy] at hmono
  rw [isFinite_iff] at hfinite ⊢
  omega

theorem abs_eq (x : Double) : x.abs = ofMagnitude false x.magnitude := by
  have hbits : x.abs.bits.toNat = (ofMagnitude false x.magnitude).bits.toNat := by
    rw [toNat_ofMagnitude _ x.magnitude_lt, if_neg Bool.false_ne_true, Nat.zero_add]
    rfl
  exact congrArg Double.mk (UInt64.toNat_inj.1 hbits)

theorem isFinite_abs (hx : x.isFinite = true) : x.abs.isFinite = true := by
  rw [abs_eq, isFinite, magnitude_ofMagnitude _ x.magnitude_lt]
  exact hx

theorem value_abs (x : Double) : x.abs.value = |x.value| := by
  obtain ⟨hsignificand, hexponent⟩ := units_of_magnitude_eq (magnitude_ofMagnitude false x.magnitude_lt)
  rw [abs_value, abs_eq, value, negative_ofMagnitude _ x.magnitude_lt, if_neg Bool.false_ne_true, one_mul, hsignificand,
    hexponent]

/-! ## Whole numbers -/

theorem place_ofNat (n : Nat) : (ofNat n).place = nearestPlace n := by
  rw [ofNat, place_ofRatio _ _ Nat.one_pos, if_neg Bool.false_ne_true, Nat.cast_one, div_one, one_mul]

theorem abs_halfAway_le {n : Nat} (h : |r| ≤ n) : |halfAway r| ≤ n := by
  obtain ⟨hlow, hhigh⟩ := abs_le.1 h
  have hle := halfAway_mono hhigh
  have hge := halfAway_mono hlow
  rw [halfAway_natCast] at hle
  rw [halfAway_neg (Nat.cast_nonneg n), halfAway_natCast] at hge
  exact abs_le.2 ⟨hge, hle⟩

/-- A number with a part after the point has a significand that is not scaled up. -/
theorem abs_value_le (hexp : x.exponent < 0) : |x.value| ≤ (2 ^ 53 : Nat) := by
  have hs : (x.significand : ℚ) ≤ (2 ^ 53 : Nat) := by exact_mod_cast x.significand_lt.le
  have hpow : (2 : ℚ) ^ x.exponent ≤ 1 := zpow_le_one_of_nonpos₀ one_le_two hexp.le
  rw [abs_value]
  calc (x.significand : ℚ) * 2 ^ x.exponent ≤ x.significand * 1 := by gcongr
    _ ≤ (2 ^ 53 : Nat) := by rwa [mul_one]

theorem isFinite_round (hx : x.isFinite = true) : x.round.isFinite = true := by
  by_cases hexp : 0 ≤ x.exponent
  · have hround : x.round = x := by
      unfold round
      rw [if_pos (by simp [hexp])]
    rwa [hround]
  · have hle : |(halfAway x.value : ℚ)| ≤ |((2 ^ 53 : Nat) : ℚ)| := by
      rw [Nat.abs_cast]
      exact_mod_cast abs_halfAway_le (abs_value_le (not_le.1 hexp))
    exact isFinite_of_abs_le (place_round hx) (place_ofNat (2 ^ 53)) hle (by decide +kernel)

theorem round_mono (hx : x.isFinite = true) (hy : y.isFinite = true) (h : x.value ≤ y.value) :
    x.round.value ≤ y.round.value :=
  value_mono (isFinite_round hx) (isFinite_round hy) (place_round hx) (place_round hy) (Int.cast_le.2 (halfAway_mono h))

/-! ## Powers of ten -/

theorem value_one : (ofNat 1).value = 1 := by
  have hnegative : (ofNat 1).negative = false := by decide +kernel
  have hsignificand : (ofNat 1).significand = unitSignificand := by decide +kernel
  have hexponent : (ofNat 1).exponent = -52 := by decide +kernel
  rw [value, hnegative, hsignificand, hexponent]
  norm_num [unitSignificand]

/-- A number by which another one can be scaled back. -/
structure IsFactor (f : Double) : Prop where
  finite : f.isFinite = true
  one_le : 1 ≤ f.value

theorem isFactor_scaleFactor (h : scale ≤ 15) : IsFactor (scaleFactor scale) := by
  have hall : ∀ n : Fin 16, (scaleFactor (UInt32.ofNat n)).isFinite = true ∧
      (ofNat 1).place ≤ (scaleFactor (UInt32.ofNat n)).place := by decide +kernel
  have hlt : scale.toNat < 16 := Nat.lt_succ_of_le (UInt32.le_iff_toNat_le.1 h)
  obtain ⟨hfinite, hle⟩ := hall ⟨scale.toNat, hlt⟩
  rw [UInt32.ofNat_toNat] at hfinite hle
  refine ⟨hfinite, ?_⟩
  rw [← value_one]
  exact (place_le_iff (by decide +kernel) hfinite).1 hle

/-! ## Scaling -/

/-- What is no larger than a number that can be scaled can be scaled. -/
theorem IsFactor.isFinite_mul (hf : IsFactor f) (hx : x.isFinite = true) (hy : y.isFinite = true)
    (h : |x.value| ≤ |y.value|) (hscaled : (y.mul f).isFinite = true) : (x.mul f).isFinite = true := by
  refine isFinite_of_abs_le (place_mul hx hf.finite) (place_mul hy hf.finite) ?_ hscaled
  rw [abs_mul, abs_mul]
  exact mul_le_mul_of_nonneg_right h (abs_nonneg _)

theorem IsFactor.mul_mono (hf : IsFactor f) (hx : x.isFinite = true) (hy : y.isFinite = true)
    (hxf : (x.mul f).isFinite = true) (hyf : (y.mul f).isFinite = true) (h : x.value ≤ y.value) :
    (x.mul f).value ≤ (y.mul f).value := by
  have hone := hf.one_le
  exact value_mono hxf hyf (place_mul hx hf.finite) (place_mul hy hf.finite)
    (mul_le_mul_of_nonneg_right h (by linarith))

theorem IsFactor.place_div (hf : IsFactor f) (hx : x.isFinite = true) :
    (x.div f).place = nearestPlace (x.value / f.value) := by
  have hone := hf.one_le
  exact Double.place_div hx hf.finite (isZero_of_pos (by linarith))

theorem IsFactor.isFinite_div (hf : IsFactor f) (hx : x.isFinite = true) : (x.div f).isFinite = true := by
  refine isFinite_of_abs_le (hf.place_div hx) (nearestPlace_value hx).symm ?_ hx
  rw [abs_div]
  exact div_le_self (abs_nonneg _) (hf.one_le.trans (le_abs_self _))

/-! ## Decimal places -/

theorem isFinite_roundTo (hscale : scale ≤ 15) (hx : (x.mul (scaleFactor scale)).isFinite = true) :
    (x.roundTo scale).isFinite = true :=
  (isFactor_scaleFactor hscale).isFinite_div (isFinite_round hx)

/-- Rounding to decimal places keeps the order. -/
theorem roundTo_mono (hscale : scale ≤ 15) (hx : x.isFinite = true) (hy : y.isFinite = true)
    (hxf : (x.mul (scaleFactor scale)).isFinite = true) (hyf : (y.mul (scaleFactor scale)).isFinite = true)
    (h : x.value ≤ y.value) : (x.roundTo scale).value ≤ (y.roundTo scale).value := by
  have hf := isFactor_scaleFactor hscale
  have hone := hf.one_le
  have hround := round_mono hxf hyf (hf.mul_mono hx hy hxf hyf h)
  exact value_mono (isFinite_roundTo hscale hxf) (isFinite_roundTo hscale hyf) (hf.place_div (isFinite_round hxf))
    (hf.place_div (isFinite_round hyf)) (div_le_div_of_nonneg_right hround (by linarith))

end Fixtures.Double
