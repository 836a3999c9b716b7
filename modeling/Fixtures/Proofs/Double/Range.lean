/-
Numbers between the ends of a range. A part of the width that is less than the whole by at least a unit in the last
place does not exceed the exact width, even where the width was rounded up. So the number that lies that part of the way
from one end to the other stays in the range.
-/
import Fixtures.Proofs.Double.Arithmetic

namespace Fixtures.Double

variable {x y w : Double}

/-! ## The next smaller number -/

/-- Exponent and significand of a number are told by its magnitude. -/
theorem fields_unique {k s : Nat} (hm : x.magnitude = k * unitSignificand + s) (hs : s < 2 * unitSignificand)
    (hnormal : k = 0 ∨ unitSignificand ≤ s) : x.exponent = k - 1074 ∧ x.significand = s := by
  have hfraction := x.fraction_lt
  rw [magnitude_eq_fields] at hm
  unfold exponent significand
  unfold unitSignificand at *
  split <;> omega

/-- The number below a positive one. -/
def pred (x : Double) : Double := ofMagnitude false (x.magnitude - 1)

theorem place_pred (h : 0 < x.value) : x.pred.place = x.place - 1 := by
  have hlt := x.magnitude_lt
  have hne : x.magnitude ≠ 0 := by simpa [isZero] using isZero_of_pos h
  rw [pred, place_ofMagnitude _ (by omega), if_neg Bool.false_ne_true, place, negative_of_pos h,
    if_neg Bool.false_ne_true]
  omega

/-- The number below lies a unit in the last place away, or half of one at the bottom of a binade. -/
theorem value_pred (h : 0 < x.value) :
    x.pred.value = x.value - 2 ^ x.exponent ∨
      -1074 < x.exponent ∧ x.pred.value = x.value - 2 ^ (x.exponent - 1) := by
  have hlt := x.magnitude_lt
  have hs := significand_pos (isZero_of_pos h)
  have hslt := x.significand_lt
  have hge := x.exponent_ge
  have hfields := x.magnitude_eq_exponent
  have hd : x.magnitude - 1 < 2 ^ 63 := by omega
  have hmagnitude : x.pred.magnitude = x.magnitude - 1 := magnitude_ofMagnitude false hd
  have hneg : x.pred.negative = false := negative_ofMagnitude false hd
  rw [value_of_nonneg (negative_of_pos h), value_of_nonneg hneg]
  by_cases hsame : unitSignificand < x.significand ∨ x.exponent = -1074
  · -- one less at the same exponent
    obtain ⟨hexponent, hsignificand⟩ : x.pred.exponent = ((x.exponent + 1074).toNat : Int) - 1074 ∧
        x.pred.significand = x.significand - 1 := fields_unique (by omega) (by omega) (by omega)
    left
    rw [hexponent, hsignificand, Nat.cast_sub hs, show ((x.exponent + 1074).toNat : Int) - 1074 = x.exponent by omega]
    push_cast
    ring
  · -- the greatest significand at the exponent below
    have hfull : x.significand = unitSignificand := by
      have hnormal := significand_eq (x := x) (by omega)
      omega
    obtain ⟨hexponent, hsignificand⟩ : x.pred.exponent = ((x.exponent + 1073).toNat : Int) - 1074 ∧
        x.pred.significand = 2 * unitSignificand - 1 := by
      refine fields_unique ?_ (by unfold unitSignificand; omega) (.inr (by unfold unitSignificand; omega))
      unfold unitSignificand at *
      omega
    right
    refine ⟨by omega, ?_⟩
    have hpow : (2 : ℚ) ^ x.exponent = 2 * 2 ^ (x.exponent - 1) := by
      rw [zpow_sub_one₀ two_ne_zero]
      ring
    rw [hexponent, hsignificand, hfull, hpow, show ((x.exponent + 1073).toNat : Int) - 1074 = x.exponent - 1 by omega]
    norm_num [unitSignificand]
    ring

theorem value_pred_ge (h : 0 < x.value) : x.value - 2 ^ x.exponent ≤ x.pred.value := by
  rcases value_pred h with h | ⟨-, h⟩
  · exact h.ge
  · have hhalf : (2 : ℚ) ^ (x.exponent - 1) ≤ 2 ^ x.exponent := zpow_le_zpow_right₀ one_le_two (by omega)
    linarith

theorem unit_le_of_unitSignificand_le (h : 0 < x.value) (hs : unitSignificand ≤ x.significand) :
    (2 : ℚ) ^ x.exponent ≤ x.value * 2 ^ (-52 : Int) := by
  have hunit : (unitSignificand : ℚ) = 2 ^ (52 : Int) := by norm_num [unitSignificand]
  have hcast : (2 : ℚ) ^ (52 : Int) ≤ x.significand := by
    rw [← hunit]
    exact_mod_cast hs
  calc (2 : ℚ) ^ x.exponent = 2 ^ (52 : Int) * 2 ^ x.exponent * 2 ^ (-52 : Int) := by
        rw [mul_right_comm, ← zpow_add₀ two_ne_zero]
        norm_num
    _ ≤ x.value * 2 ^ (-52 : Int) := by
        rw [value_of_nonneg (negative_of_pos h)]
        gcongr

/-! ## Ranges -/

/-- Two finite numbers in order that are not too far apart. -/
structure IsRange (low high : Double) : Prop where
  low_finite : low.isFinite = true
  high_finite : high.isFinite = true
  width_finite : (high.sub low).isFinite = true
  le : low.value ≤ high.value

/-- A part of the whole that is less than it by at least a unit in the last place. -/
structure IsPart (u : Double) : Prop where
  finite : u.isFinite = true
  nonneg : 0 ≤ u.value
  le : u.value ≤ 1 - 2 ^ (-52 : Int)

variable {low high u u' : Double}

theorem IsRange.width_nonneg (h : IsRange low high) : 0 ≤ (high.sub low).value := by
  refine value_nonneg ?_
  rw [place_sub h.high_finite h.low_finite, ← nearestPlace_zero]
  exact nearestPlace_mono (sub_nonneg.2 h.le)

/-- Finite numbers are multiples of the least of them. -/
theorem exists_value_eq (x : Double) : ∃ n : Int, x.value = n * 2 ^ (-1074 : Int) :=
  ⟨_, (value_signedAt x.exponent_ge).symm⟩

/-- A difference of two multiples of the least number is not rounded up to a short significand. -/
theorem unitSignificand_le_of_rounded_up (hpos : 0 < w.value) (hlow : w.pred.value < x.value - y.value)
    (hup : x.value - y.value < w.value) : unitSignificand ≤ w.significand := by
  by_contra hshort
  have hexponent : w.exponent = -1074 := by
    by_contra hne
    have hge := w.exponent_ge
    have hnormal := significand_eq (x := w) (by omega)
    omega
  have hleast : w.pred.value = w.value - 2 ^ (-1074 : Int) := by
    rcases value_pred hpos with h | ⟨h, -⟩
    · rwa [hexponent] at h
    · omega
  have hvalue := value_of_nonneg (negative_of_pos hpos)
  obtain ⟨m, hm⟩ := exists_value_eq x
  obtain ⟨n, hn⟩ := exists_value_eq y
  have hpow : (0 : ℚ) < 2 ^ (-1074 : Int) := by positivity
  rw [hexponent] at hvalue
  rw [hleast, hm, hn, hvalue] at hlow
  rw [hm, hn, hvalue] at hup
  generalize (2 : ℚ) ^ (-1074 : Int) = unit at *
  -- the exact difference lies between two neighbouring multiples of the least number
  have hbelow : ((m - n : Int) : ℚ) < (w.significand : Int) := by
    refine lt_of_mul_lt_mul_right ?_ hpow.le
    push_cast
    linarith
  have habove : ((w.significand - 1 : Int) : ℚ) < (m - n : Int) := by
    refine lt_of_mul_lt_mul_right ?_ hpow.le
    push_cast
    linarith
  rw [Int.cast_lt] at hbelow habove
  omega

/-- Where the width of a range is rounded up, the next smaller number lies below the exact width, and less than it by a
part of the whole that is at most a unit in the last place. -/
theorem IsRange.pred_width (h : IsRange low high) (hup : high.value - low.value < (high.sub low).value) :
    (high.sub low).pred.isFinite = true ∧ (high.sub low).pred.value < high.value - low.value ∧
      (high.sub low).value * (1 - 2 ^ (-52 : Int)) ≤ (high.sub low).pred.value := by
  have hplace := place_sub h.high_finite h.low_finite
  have hw := h.width_finite
  have hle := h.le
  generalize high.sub low = w at *
  have hpos : 0 < w.value := by linarith
  have hpred := place_pred hpos
  have hnonneg : 0 < w.place := by
    have hne : w.magnitude ≠ 0 := by simpa [isZero] using isZero_of_pos hpos
    rw [place, negative_of_pos hpos, if_neg Bool.false_ne_true]
    omega
  have hfinite : w.pred.isFinite = true := by
    rw [isFinite_iff] at hw ⊢
    omega
  have hlt : w.pred.value < high.value - low.value := by
    by_contra hge
    have hmono := nearestPlace_mono (not_lt.1 hge)
    rw [← hplace, nearestPlace_value hfinite] at hmono
    omega
  have hunit := unit_le_of_unitSignificand_le hpos (unitSignificand_le_of_rounded_up hpos hlt hup)
  have hstep := value_pred_ge hpos
  exact ⟨hfinite, hlt, by linarith⟩

/-- A part of the width, rounded, is no more than the exact width. -/
theorem IsRange.part (h : IsRange low high) (hu : IsPart u) :
    (u.mul (high.sub low)).isFinite = true ∧ 0 ≤ (u.mul (high.sub low)).value ∧
      (u.mul (high.sub low)).value ≤ high.value - low.value := by
  have hwidth := h.width_nonneg
  have hmul : u.value * (high.sub low).value ≤ (high.sub low).value * (1 - 2 ^ (-52 : Int)) := by
    rw [mul_comm]
    exact mul_le_mul_of_nonneg_left hu.le hwidth
  -- a number lies between the exact part and the exact width
  obtain ⟨b, hb, hbound, hpart⟩ : ∃ b : Double, b.isFinite = true ∧ b.value ≤ high.value - low.value ∧
      (high.sub low).value * (1 - 2 ^ (-52 : Int)) ≤ b.value := by
    rcases le_or_gt (high.sub low).value (high.value - low.value) with hle | hup
    · have hunit : (0 : ℚ) < 2 ^ (-52 : Int) := by positivity
      exact ⟨_, h.width_finite, hle, by nlinarith⟩
    · obtain ⟨hfinite, hlt, hpred⟩ := h.pred_width hup
      exact ⟨_, hfinite, hlt.le, hpred⟩
  have hplace := place_mul hu.finite h.width_finite
  have hlow : 0 ≤ (u.mul (high.sub low)).place := by
    rw [hplace, ← nearestPlace_zero]
    exact nearestPlace_mono (mul_nonneg hu.nonneg hwidth)
  have hhigh : (u.mul (high.sub low)).place ≤ b.place := by
    rw [hplace, ← nearestPlace_value hb]
    exact nearestPlace_mono (hmul.trans hpart)
  have hfinite : (u.mul (high.sub low)).isFinite = true := by
    rw [isFinite_iff] at hb ⊢
    omega
  exact ⟨hfinite, value_nonneg hlow, ((place_le_iff hfinite hb).1 hhigh).trans hbound⟩

/-! ## Between the ends of a range -/

/-- The number that lies a part of the way from one number to another, as it is computed. -/
def partWay (low high u : Double) : Double := (u.mul (high.sub low)).add low

theorem IsRange.place_partWay (h : IsRange low high) (hu : IsPart u) :
    (partWay low high u).place = nearestPlace ((u.mul (high.sub low)).value + low.value) :=
  place_add (h.part hu).1 h.low_finite

/-- A number between two others. -/
structure IsIn (low high x : Double) : Prop where
  finite : x.isFinite = true
  low_le : low.le x = true
  le_high : x.le high = true

theorem IsRange.isIn_partWay (h : IsRange low high) (hu : IsPart u) : IsIn low high (partWay low high u) := by
  obtain ⟨-, hnonneg, hpart⟩ := h.part hu
  have hge : low.place ≤ (partWay low high u).place := by
    rw [h.place_partWay hu, ← nearestPlace_value h.low_finite]
    exact nearestPlace_mono (by linarith)
  have hle : (partWay low high u).place ≤ high.place := by
    rw [h.place_partWay hu, ← nearestPlace_value h.high_finite]
    exact nearestPlace_mono (by linarith)
  have hfinite := isFinite_of_between h.low_finite h.high_finite hge hle
  exact ⟨hfinite, (le_iff h.low_finite hfinite).2 ((place_le_iff h.low_finite hfinite).1 hge),
    (le_iff hfinite h.high_finite).2 ((place_le_iff hfinite h.high_finite).1 hle)⟩

/-- More of the way leads farther. -/
theorem IsRange.partWay_mono (h : IsRange low high) (hu : IsPart u) (hu' : IsPart u') (hle : u.value ≤ u'.value) :
    (partWay low high u).value ≤ (partWay low high u').value := by
  have hpart : (u.mul (high.sub low)).value ≤ (u'.mul (high.sub low)).value :=
    value_mono (h.part hu).1 (h.part hu').1 (place_mul hu.finite h.width_finite) (place_mul hu'.finite h.width_finite)
      (mul_le_mul_of_nonneg_right hle h.width_nonneg)
  exact value_mono (h.isIn_partWay hu).finite (h.isIn_partWay hu').finite (h.place_partWay hu) (h.place_partWay hu')
    (by linarith)

/-- None of the way leads nowhere. -/
theorem IsRange.value_partWay_zero (h : IsRange low high) (hu : IsPart u) (hzero : u.value = 0) :
    (partWay low high u).value = low.value := by
  have hpart : (u.mul (high.sub low)).place = 0 := by
    rw [place_mul hu.finite h.width_finite, hzero, zero_mul, nearestPlace_zero]
  have hvalue : (u.mul (high.sub low)).value = 0 := by
    refine value_of_isZero ?_
    rw [isZero, beq_iff_eq, ← natAbs_place, hpart]
    rfl
  refine value_eq_of_place_eq ?_
  rw [h.place_partWay hu, hvalue, zero_add, nearestPlace_value h.low_finite]

end Fixtures.Double
