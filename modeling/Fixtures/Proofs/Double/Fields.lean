/-
The fields of a bit pattern. The magnitude is the exponent field above the 52 stored bits; with the
exponent and the significand that they stand for, it is a multiple of 2 ^ 52 plus the significand. Sign and
magnitude are the whole pattern.
-/
import Fixtures.Double.Basic
import Mathlib.Algebra.Group.Nat.Defs

namespace Fixtures.Double

variable {x : Double}

/-! ## Fields as quotients and remainders -/

theorem biased_eq (x : Double) : x.biased = x.bits.toNat / 2 ^ 52 % 2 ^ 11 := by
  have hmask : (0x7ff : UInt64).toNat = 2 ^ 11 - 1 := rfl
  unfold biased
  rw [UInt64.toNat_and, hmask, Nat.and_two_pow_sub_one_eq_mod, UInt64.toNat_shiftRight, Nat.shiftRight_eq_div_pow]
  rfl

theorem fraction_eq (x : Double) : x.fraction = x.bits.toNat % 2 ^ 52 := by
  have hmask : (0xfffffffffffff : UInt64).toNat = 2 ^ 52 - 1 := rfl
  unfold fraction
  rw [UInt64.toNat_and, hmask, Nat.and_two_pow_sub_one_eq_mod]

theorem magnitude_eq (x : Double) : x.magnitude = x.bits.toNat % 2 ^ 63 := by
  have hmask : (0x7fffffffffffffff : UInt64).toNat = 2 ^ 63 - 1 := rfl
  unfold magnitude
  rw [UInt64.toNat_and, hmask, Nat.and_two_pow_sub_one_eq_mod]

theorem magnitude_lt (x : Double) : x.magnitude < 2 ^ 63 := by
  rw [magnitude_eq]
  exact Nat.mod_lt _ (by decide)

theorem negative_iff (x : Double) : x.negative = true ↔ 2 ^ 63 ≤ x.bits.toNat := by
  have hlt := x.bits.toNat_lt
  unfold negative
  rw [beq_iff_eq, ← UInt64.toNat_inj, UInt64.toNat_shiftRight, Nat.shiftRight_eq_div_pow]
  simp only [UInt64.reduceToNat, Nat.reduceMod]
  omega

theorem fraction_lt (x : Double) : x.fraction < unitSignificand := by
  rw [fraction_eq]
  exact Nat.mod_lt _ (by decide)

theorem magnitude_eq_fields (x : Double) : x.magnitude = x.biased * unitSignificand + x.fraction := by
  have hunit : unitSignificand = 2 ^ 52 := rfl
  rw [magnitude_eq, biased_eq, fraction_eq, hunit]
  omega

/-- The fields are those of the magnitude. -/
theorem fields_of_magnitude_eq {y : Double} (h : x.magnitude = y.magnitude) :
    x.biased = y.biased ∧ x.fraction = y.fraction := by
  have hx := x.fraction_lt
  have hy := y.fraction_lt
  rw [magnitude_eq_fields, magnitude_eq_fields] at h
  unfold unitSignificand at *
  omega

/-- So are significand and exponent. -/
theorem units_of_magnitude_eq {y : Double} (h : x.magnitude = y.magnitude) :
    x.significand = y.significand ∧ x.exponent = y.exponent := by
  obtain ⟨hbiased, hfraction⟩ := fields_of_magnitude_eq h
  rw [significand, significand, exponent, exponent, hbiased, hfraction]
  exact ⟨rfl, rfl⟩

theorem toNat_ofMagnitude {m : Nat} (negative : Bool) (hm : m < 2 ^ 63) :
    (ofMagnitude negative m).bits.toNat = (if negative then 2 ^ 63 else 0) + m := by
  have hnat : (UInt64.ofNat m).toNat = m := by
    rw [UInt64.toNat_ofNat']
    exact Nat.mod_eq_of_lt (by omega)
  unfold ofMagnitude
  simp only
  rw [UInt64.toNat_or, hnat]
  cases negative with
  | false => simp
  | true =>
    have hbit : (0x8000000000000000 : UInt64).toNat = 2 ^ 63 * 1 := rfl
    rw [if_pos rfl, if_pos rfl, hbit, ← Nat.two_pow_add_eq_or_of_lt hm, Nat.mul_one]

/-- A number is given by its sign and its magnitude. -/
theorem ofMagnitude_magnitude (x : Double) : ofMagnitude x.negative x.magnitude = x := by
  have hlt := x.bits.toNat_lt
  have hsmall : x.magnitude < 2 ^ 63 := magnitude_lt x
  have hsign := x.negative_iff
  have hbits := toNat_ofMagnitude x.negative hsmall
  rw [magnitude_eq] at hbits
  have htoNat : (ofMagnitude x.negative x.magnitude).bits.toNat = x.bits.toNat := by
    rw [magnitude_eq, hbits]
    cases hneg : x.negative <;> simp only [hneg] at hsign ⊢ <;> simp at hsign ⊢ <;> omega
  exact congrArg Double.mk (UInt64.toNat_inj.1 htoNat)

theorem negative_ofMagnitude {m : Nat} (negative : Bool) (hm : m < 2 ^ 63) :
    (ofMagnitude negative m).negative = negative := by
  rw [Bool.eq_iff_iff, negative_iff, toNat_ofMagnitude negative hm]
  cases negative with
  | false =>
    simp only [Bool.false_eq_true, if_false, iff_false]
    omega
  | true => simp

theorem magnitude_ofMagnitude {m : Nat} (negative : Bool) (hm : m < 2 ^ 63) :
    (ofMagnitude negative m).magnitude = m := by
  rw [magnitude_eq, toNat_ofMagnitude negative hm]
  cases negative <;> simp <;> omega

/-! ## Finite numbers -/

theorem not_isNaN_of_isFinite (h : x.isFinite = true) : x.isNaN = false := by
  simp only [isFinite, isNaN, decide_eq_true_eq, decide_eq_false_iff_not] at *
  omega

theorem not_isInfinite_of_isFinite (h : x.isFinite = true) : x.isInfinite = false := by
  simp only [isFinite, isInfinite, decide_eq_true_eq, beq_eq_false_iff_ne] at *
  omega

theorem biased_lt_of_isFinite (hx : x.isFinite = true) : x.biased < 2047 := by
  have hfields := x.magnitude_eq_fields
  have hunit : unitSignificand = 2 ^ 52 := rfl
  have hinfinity : infinityMagnitude = 2047 * 2 ^ 52 := rfl
  unfold isFinite at hx
  rw [decide_eq_true_eq, hfields, hinfinity, hunit] at hx
  omega

theorem exponent_ge (x : Double) : -1074 ≤ x.exponent := by
  unfold exponent
  omega

theorem exponent_le_of_isFinite (hx : x.isFinite = true) : x.exponent ≤ 971 := by
  have hbiased := biased_lt_of_isFinite hx
  unfold exponent
  omega

theorem significand_lt (x : Double) : x.significand < 2 * unitSignificand := by
  have hfraction := x.fraction_lt
  unfold significand
  split <;> omega

theorem one_lt_biased (hx : -1074 < x.exponent) : 1 < x.biased := by
  unfold exponent at hx
  omega

/-- Above the least exponent a significand has the bit that is not stored. -/
theorem significand_eq (hx : -1074 < x.exponent) : x.significand = x.fraction + unitSignificand := by
  have hbiased := one_lt_biased hx
  unfold significand
  rw [if_neg (by omega)]

/-- The magnitude of a number, from its exponent and its significand. -/
theorem magnitude_eq_exponent (x : Double) :
    x.magnitude = (x.exponent + 1074).toNat * unitSignificand + x.significand := by
  rw [magnitude_eq_fields]
  unfold exponent significand
  split
  · rename_i hbiased
    simp [hbiased]
  · rename_i hbiased
    have hplace : ((max x.biased 1 : Nat) - 1075 + 1074 : Int).toNat = x.biased - 1 := by omega
    have hunit : unitSignificand = 2 ^ 52 := rfl
    rw [hplace, hunit]
    omega

theorem significand_pos (hx : x.isZero = false) : 0 < x.significand := by
  unfold isZero at hx
  rw [beq_eq_false_iff_ne, magnitude_eq_fields] at hx
  unfold significand
  have hunit : 0 < unitSignificand := by decide
  split
  · rename_i hbiased
    rw [hbiased] at hx
    omega
  · omega

end Fixtures.Double
