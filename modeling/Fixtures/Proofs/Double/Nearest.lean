/-
Rounding to the nearest number. A fraction that lies in the rounding interval of a finite number is rounded
to that number: its magnitude is the nearest one, and at an end of the interval the significand is even.
-/
import Fixtures.Decimal.Shortest
import Fixtures.Proofs.Double.Fields
import Mathlib.Algebra.Order.Field.Power
import Mathlib.Data.Int.Log
import Mathlib.Data.Rat.Floor
import Mathlib.Tactic.Linarith
import Mathlib.Tactic.Positivity
import Mathlib.Tactic.Ring
import Mathlib.Tactic.NormNum
import Mathlib.Tactic.FieldSimp
import Mathlib.Tactic.GCongr

namespace Fixtures.Double

variable {x : Double} {num den n : Nat} {e : Int} {r : ℚ}

/-! ## Exact quotients -/

/-- A shifted ratio is the ratio over the power of two. -/
theorem shiftRatio_spec (num : Nat) (hden : 0 < den) (e : Int) :
    0 < (shiftRatio num den e).2 ∧
      ((shiftRatio num den e).1 : ℚ) / (shiftRatio num den e).2 = (num : ℚ) / den / 2 ^ e := by
  unfold shiftRatio
  split
  · rename_i he
    obtain ⟨k, rfl⟩ := Int.eq_ofNat_of_zero_le he
    simp only [Int.toNat_natCast, Nat.pow_eq, zpow_natCast]
    refine ⟨by positivity, ?_⟩
    push_cast
    rw [div_div]
  · rename_i he
    obtain ⟨k, rfl⟩ : ∃ k : Nat, e = -(k : Int) := ⟨(-e).toNat, by omega⟩
    simp only [neg_neg, Int.toNat_natCast, Nat.pow_eq, zpow_neg, zpow_natCast]
    refine ⟨hden, ?_⟩
    push_cast
    rw [div_inv_eq_mul, mul_div_right_comm]

theorem int_log_eq {t : Int} (hr : 0 < r) (hlow : (2 : ℚ) ^ t ≤ r) (hhigh : r < 2 ^ (t + 1)) : Int.log 2 r = t := by
  have hle := (Int.zpow_le_iff_le_log (b := 2) (by decide) hr).1 (by exact_mod_cast hlow)
  have hlt := (Int.lt_zpow_iff_log_lt (b := 2) (by decide) hr).1 (by exact_mod_cast hhigh)
  omega

/-- The guess of a logarithm is checked by an exact comparison. -/
theorem reached_iff (hden : 0 < den) (t : Int) :
    (if 0 ≤ t then den * Nat.pow 2 t.toNat ≤ num else den ≤ num * Nat.pow 2 (-t).toNat) ↔
      (2 : ℚ) ^ t ≤ (num : ℚ) / den := by
  have hpos : (0 : ℚ) < den := by exact_mod_cast hden
  rw [le_div_iff₀ hpos]
  split
  · rename_i ht
    obtain ⟨k, rfl⟩ := Int.eq_ofNat_of_zero_le ht
    simp only [Int.toNat_natCast, Nat.pow_eq, zpow_natCast]
    rw [mul_comm]
    exact_mod_cast Iff.rfl
  · rename_i ht
    obtain ⟨k, rfl⟩ : ∃ k : Nat, t = -(k : Int) := ⟨(-t).toNat, by omega⟩
    simp only [neg_neg, Int.toNat_natCast, Nat.pow_eq, zpow_neg, zpow_natCast]
    rw [← div_eq_inv_mul, div_le_iff₀ (by positivity)]
    exact_mod_cast Iff.rfl

theorem floorLog2_eq (hnum : 0 < num) (hden : 0 < den) : floorLog2 num den = Int.log 2 ((num : ℚ) / den) := by
  have hnumPos : (0 : ℚ) < num := by exact_mod_cast hnum
  have hdenPos : (0 : ℚ) < den := by exact_mod_cast hden
  have hnumLow : (2 : ℚ) ^ (num.log2 : Int) ≤ num := by
    rw [zpow_natCast]; exact_mod_cast Nat.log2_self_le hnum.ne'
  have hnumHigh : (num : ℚ) < 2 ^ ((num.log2 : Int) + 1) := by
    exact_mod_cast (Nat.lt_log2_self : num < 2 ^ (num.log2 + 1))
  have hdenLow : (2 : ℚ) ^ (den.log2 : Int) ≤ den := by
    rw [zpow_natCast]; exact_mod_cast Nat.log2_self_le hden.ne'
  have hdenHigh : (den : ℚ) < 2 ^ ((den.log2 : Int) + 1) := by
    exact_mod_cast (Nat.lt_log2_self : den < 2 ^ (den.log2 + 1))
  -- the difference of both logarithms is the logarithm of the quotient or one more
  have hlow : (2 : ℚ) ^ ((num.log2 : Int) - den.log2 - 1) ≤ (num : ℚ) / den := by
    rw [le_div_iff₀ hdenPos]
    calc (2 : ℚ) ^ ((num.log2 : Int) - den.log2 - 1) * den
        ≤ 2 ^ ((num.log2 : Int) - den.log2 - 1) * 2 ^ ((den.log2 : Int) + 1) := by gcongr
      _ = 2 ^ (num.log2 : Int) := by rw [← zpow_add₀ two_ne_zero]; congr 1; ring
      _ ≤ num := hnumLow
  have hhigh : (num : ℚ) / den < 2 ^ ((num.log2 : Int) - den.log2 + 1) := by
    rw [div_lt_iff₀ hdenPos]
    calc (num : ℚ) < 2 ^ ((num.log2 : Int) + 1) := hnumHigh
      _ = 2 ^ ((num.log2 : Int) - den.log2 + 1) * 2 ^ (den.log2 : Int) := by
          rw [← zpow_add₀ two_ne_zero]; congr 1; ring
      _ ≤ 2 ^ ((num.log2 : Int) - den.log2 + 1) * den := by gcongr
  have hpos : (0 : ℚ) < (num : ℚ) / den := by positivity
  unfold floorLog2
  simp only [reached_iff hden]
  split
  · rename_i hreached
    exact (int_log_eq hpos hreached hhigh).symm
  · rename_i hreached
    exact (int_log_eq hpos hlow (by rw [sub_add_cancel]; exact not_le.1 hreached)).symm

/-- A quotient less than a half from an integer, or just a half from an even one, is rounded to it. -/
theorem roundHalfEven_eq (hden : 0 < den)
    (hlow : (n : ℚ) - 1 / 2 < (num : ℚ) / den ∨ n % 2 = 0 ∧ (n : ℚ) - 1 / 2 = (num : ℚ) / den)
    (hhigh : (num : ℚ) / den < n + 1 / 2 ∨ n % 2 = 0 ∧ (num : ℚ) / den = n + 1 / 2) : roundHalfEven num den = n := by
  have hpos : (0 : ℚ) < den := by exact_mod_cast hden
  -- the bounds without fractions
  have hlow' : 2 * (den * n) < 2 * num + den ∨ n % 2 = 0 ∧ 2 * (den * n) = 2 * num + den := by
    rw [lt_div_iff₀ hpos, eq_div_iff hpos.ne'] at hlow
    rcases hlow with h | ⟨heven, h⟩
    · left
      have : (2 : ℚ) * (den * n) < 2 * num + den := by linarith
      exact_mod_cast this
    · right
      have : (2 : ℚ) * (den * n) = 2 * num + den := by linarith
      exact ⟨heven, by exact_mod_cast this⟩
  have hhigh' : 2 * num < 2 * (den * n) + den ∨ n % 2 = 0 ∧ 2 * num = 2 * (den * n) + den := by
    rw [div_lt_iff₀ hpos, div_eq_iff hpos.ne'] at hhigh
    rcases hhigh with h | ⟨heven, h⟩
    · left
      have : (2 : ℚ) * num < 2 * (den * n) + den := by linarith
      exact_mod_cast this
    · right
      have : (2 : ℚ) * num = 2 * (den * n) + den := by linarith
      exact ⟨heven, by exact_mod_cast this⟩
  have hdiv := Nat.div_add_mod num den
  have hmod := Nat.mod_lt num hden
  -- so the integer is the quotient or the next one
  have hcases : n = num / den ∨ n = num / den + 1 := by
    have hge : num / den ≤ n := by
      by_contra hlt
      have : den * (n + 1) ≤ den * (num / den) := Nat.mul_le_mul_left _ (by omega)
      rw [Nat.mul_add, Nat.mul_one] at this
      omega
    have hle : n ≤ num / den + 1 := by
      by_contra hlt
      have : den * (num / den + 2) ≤ den * n := Nat.mul_le_mul_left _ (by omega)
      rw [Nat.mul_add] at this
      omega
    omega
  unfold roundHalfEven
  simp only
  rcases hcases with hn | hn
  · rw [hn] at hlow' hhigh' ⊢
    split
    · rfl
    split
    · omega
    · rw [if_pos (by omega)]
  · rw [hn, Nat.mul_add, Nat.mul_one] at hlow' hhigh'
    rw [hn]
    split
    · omega
    split
    · rfl
    · rw [if_neg (by omega)]

/-! ## The rounding interval -/

/-- A rational lies in the rounding interval of a finite number: between its ends, or at one of them if the
significand is even. -/
def Attracts (x : Double) (r : ℚ) : Prop :=
  (x.roundingEnds.1 * 2 ^ (x.exponent - 2) < r ∨ x.significand % 2 = 0 ∧ x.roundingEnds.1 * 2 ^ (x.exponent - 2) = r) ∧
    (r < x.roundingEnds.2 * 2 ^ (x.exponent - 2) ∨ x.significand % 2 = 0 ∧ r = x.roundingEnds.2 * 2 ^ (x.exponent - 2))

/-- The interval in units of the last place: half of one to both sides, and a quarter of one below the least
significand of a binade that has another one below it. -/
theorem Attracts.units (hx : x.isZero = false) (h : x.Attracts r) :
    let t := r / 2 ^ x.exponent
    ((x.significand : ℚ) - 1 / 2 < t ∨ x.significand % 2 = 0 ∧ (x.significand : ℚ) - 1 / 2 = t) ∧
      (t < x.significand + 1 / 2 ∨ x.significand % 2 = 0 ∧ t = x.significand + 1 / 2) ∧
      (x.fraction = 0 ∧ 1 < x.biased → (x.significand : ℚ) - 1 / 4 ≤ t) := by
  intro t
  have hs := significand_pos hx
  have hpow : (2 : ℚ) ^ (x.exponent - 2) = 2 ^ x.exponent / 4 := by
    rw [zpow_sub₀ two_ne_zero]; norm_num
  have hpos : (0 : ℚ) < 2 ^ x.exponent := by positivity
  have hr : r = t * 2 ^ x.exponent := by
    rw [div_mul_cancel₀ _ hpos.ne']
  have hhighEnd : (x.roundingEnds.2 : ℚ) / 4 = x.significand + 1 / 2 := by
    simp only [roundingEnds]
    push_cast
    ring
  have hscale (a : ℚ) : a * (2 ^ x.exponent / 4) = a / 4 * 2 ^ x.exponent := by ring
  unfold Attracts at h
  rw [hpow, hr] at h
  simp only [hscale, mul_lt_mul_iff_left₀ hpos, mul_left_inj' hpos.ne', hhighEnd] at h
  obtain ⟨hlow, hhigh⟩ := h
  by_cases hleast : x.fraction = 0 ∧ 1 < x.biased
  · have hlowEnd : (x.roundingEnds.1 : ℚ) / 4 = x.significand - 1 / 4 := by
      simp only [roundingEnds, if_pos hleast]
      rw [Nat.cast_sub (by omega)]
      push_cast
      ring
    rw [hlowEnd] at hlow
    have hge : (x.significand : ℚ) - 1 / 4 ≤ t := by
      rcases hlow with hlow | ⟨-, hlow⟩
      · exact hlow.le
      · exact hlow.le
    exact ⟨.inl (by linarith), hhigh, fun _ => hge⟩
  · have hlowEnd : (x.roundingEnds.1 : ℚ) / 4 = x.significand - 1 / 2 := by
      simp only [roundingEnds, if_neg hleast]
      rw [Nat.cast_sub (by omega)]
      push_cast
      ring
    rw [hlowEnd] at hlow
    exact ⟨hlow, hhigh, fun h => absurd h hleast⟩

/-! ## Rounding -/

theorem Attracts.pos (hx : x.isZero = false) (h : x.Attracts r) : 0 < r := by
  obtain ⟨hlow, -, -⟩ := h.units hx
  have hs : (1 : ℚ) ≤ x.significand := by exact_mod_cast significand_pos hx
  have ht : 0 < r / 2 ^ x.exponent := by
    rcases hlow with hlow | ⟨-, hlow⟩ <;> linarith
  exact (div_pos_iff_of_pos_right (zpow_pos two_pos _)).1 ht

/-- The nearest magnitude, from the exponent at which the fraction is rounded and the rounded significand. -/
theorem nearestMagnitude_eq (hnum : 0 < num) (hden : 0 < den) (he : max (Int.log 2 ((num : ℚ) / den) - 52) (-1074) = e)
    (hlow : (n : ℚ) - 1 / 2 < (num : ℚ) / den / 2 ^ e ∨ n % 2 = 0 ∧ (n : ℚ) - 1 / 2 = (num : ℚ) / den / 2 ^ e)
    (hhigh : (num : ℚ) / den / 2 ^ e < n + 1 / 2 ∨ n % 2 = 0 ∧ (num : ℚ) / den / 2 ^ e = n + 1 / 2) :
    nearestMagnitude num den = min ((e + 1074).toNat * unitSignificand + n) infinityMagnitude := by
  obtain ⟨hpos, hratio⟩ := shiftRatio_spec num hden e
  unfold nearestMagnitude
  rw [if_neg hnum.ne', floorLog2_eq hnum hden]
  simp only [he]
  rw [← hratio] at hlow hhigh
  rw [roundHalfEven_eq hpos hlow hhigh]

theorem log_lt_of_div_lt {k : Int} (hr : 0 < r) (h : r / 2 ^ e < 2 ^ k) : Int.log 2 r < e + k := by
  rw [div_lt_iff₀ (zpow_pos two_pos e), ← zpow_add₀ two_ne_zero, add_comm] at h
  exact (Int.lt_zpow_iff_log_lt (b := 2) (by decide) hr).1 (by exact_mod_cast h)

theorem le_log_of_le_div {k : Int} (hr : 0 < r) (h : 2 ^ k ≤ r / 2 ^ e) : e + k ≤ Int.log 2 r := by
  rw [le_div_iff₀ (zpow_pos two_pos e), ← zpow_add₀ two_ne_zero, add_comm] at h
  exact (Int.zpow_le_iff_le_log (b := 2) (by decide) hr).1 (by exact_mod_cast h)

/-- What is rounded to a number and is not below its binade is rounded at its exponent. -/
theorem Attracts.exponent_eq (hx : x.isZero = false) (h : x.Attracts r)
    (hbinade : x.exponent = -1074 ∨ 2 ^ 52 ≤ r / 2 ^ x.exponent) : max (Int.log 2 r - 52) (-1074) = x.exponent := by
  obtain ⟨-, hhigh, -⟩ := h.units hx
  have hge := x.exponent_ge
  have hfull : (x.significand : ℚ) + 1 ≤ 2 ^ 53 := by
    exact_mod_cast (x.significand_lt : x.significand + 1 ≤ 2 ^ 53)
  have hlt : r / 2 ^ x.exponent < 2 ^ (53 : Int) := by
    generalize r / 2 ^ x.exponent = t at hhigh
    rw [zpow_ofNat]
    rcases hhigh with hhigh | ⟨-, hhigh⟩ <;> linarith
  have hlog := log_lt_of_div_lt (h.pos hx) hlt
  rcases hbinade with hleast | hbinade
  · omega
  · have hlog' := le_log_of_le_div (k := 52) (h.pos hx) (by exact_mod_cast hbinade)
    omega

/-- What is rounded to a number and lies below its binade is within a quarter of the least significand, and is
rounded at the exponent of the binade below. -/
theorem Attracts.below (hx : x.isZero = false) (h : x.Attracts r)
    (hbinade : ¬ (x.exponent = -1074 ∨ 2 ^ 52 ≤ r / 2 ^ x.exponent)) :
    x.significand = 2 ^ 52 ∧ (2 : ℚ) ^ 52 - 1 / 4 ≤ r / 2 ^ x.exponent ∧
      max (Int.log 2 r - 52) (-1074) = x.exponent - 1 := by
  obtain ⟨hlow, -, hleast⟩ := h.units hx
  obtain ⟨hexp, hlt⟩ := not_or.1 hbinade
  rw [not_le] at hlt
  have hge := x.exponent_ge
  have hgt : -1074 < x.exponent := by omega
  have hs := significand_eq hgt
  have hunit : unitSignificand = 2 ^ 52 := rfl
  have hfraction : x.fraction = 0 := by
    by_contra hne
    have hs' : (2 ^ 52 + 1 : ℚ) ≤ x.significand := by
      exact_mod_cast (by omega : 2 ^ 52 + 1 ≤ x.significand)
    rcases hlow with hlow | ⟨-, hlow⟩ <;> linarith
  rw [hfraction, zero_add, hunit] at hs
  have hquarter := hleast ⟨hfraction, one_lt_biased hgt⟩
  rw [hs] at hquarter
  push_cast at hquarter
  have hlog := log_lt_of_div_lt (k := 52) (h.pos hx) (by exact_mod_cast hlt)
  have hle : (2 : ℚ) ^ (51 : Int) ≤ r / 2 ^ x.exponent := by
    refine le_trans ?_ hquarter
    norm_num
  have hlog' := le_log_of_le_div (h.pos hx) hle
  exact ⟨hs, hquarter, by omega⟩

/-- A fraction in the rounding interval of a finite number is rounded to its magnitude. -/
theorem nearestMagnitude_of_attracts (hfinite : x.isFinite = true) (hx : x.isZero = false) (hden : 0 < den)
    (h : x.Attracts ((num : ℚ) / den)) : nearestMagnitude num den = x.magnitude := by
  obtain ⟨hlow, hhigh, -⟩ := h.units hx
  have hnum : 0 < num := by
    rcases Nat.eq_zero_or_pos num with rfl | hnum
    · simpa using h.pos hx
    · exact hnum
  have hmax : x.magnitude ≤ infinityMagnitude := by
    unfold isFinite at hfinite
    exact (of_decide_eq_true hfinite).le
  by_cases hbinade : x.exponent = -1074 ∨ 2 ^ 52 ≤ (num : ℚ) / den / 2 ^ x.exponent
  · rw [nearestMagnitude_eq hnum hden (h.exponent_eq hx hbinade) hlow hhigh, ← x.magnitude_eq_exponent]
    exact min_eq_left hmax
  · -- the significand is rounded up to the full one of the binade below, which carries into the exponent
    obtain ⟨hs, hquarter, he⟩ := h.below hx hbinade
    have hlt := not_le.1 (not_or.1 hbinade).2
    have hhalf : (num : ℚ) / den / 2 ^ (x.exponent - 1) = 2 * ((num : ℚ) / den / 2 ^ x.exponent) := by
      rw [zpow_sub_one₀ two_ne_zero]
      field_simp
    have hlow' : ((2 ^ 53 : ℕ) : ℚ) - 1 / 2 < (num : ℚ) / den / 2 ^ (x.exponent - 1) ∨
        2 ^ 53 % 2 = 0 ∧ ((2 ^ 53 : ℕ) : ℚ) - 1 / 2 = (num : ℚ) / den / 2 ^ (x.exponent - 1) := by
      rw [hhalf]
      generalize (num : ℚ) / den / 2 ^ x.exponent = t at hquarter
      push_cast
      rcases hquarter.lt_or_eq with hquarter | hquarter
      · exact .inl (by linarith)
      · exact .inr ⟨by decide, by linarith⟩
    have hhigh' : (num : ℚ) / den / 2 ^ (x.exponent - 1) < ((2 ^ 53 : ℕ) : ℚ) + 1 / 2 := by
      rw [hhalf]
      generalize (num : ℚ) / den / 2 ^ x.exponent = t at hlt
      push_cast
      linarith
    have hsum : (x.exponent - 1 + 1074).toNat * unitSignificand + 2 ^ 53 = x.magnitude := by
      have hge := x.exponent_ge
      have hexp := (not_or.1 hbinade).1
      have hunit : unitSignificand = 2 ^ 52 := rfl
      rw [x.magnitude_eq_exponent, hs, hunit]
      omega
    rw [nearestMagnitude_eq hnum hden he hlow' (.inl hhigh'), hsum]
    exact min_eq_left hmax

end Fixtures.Double
