/-
Numbers on the line. A finite number has an exact value, and every rational has a place on the line: that of the number
to which it is rounded. Rounding keeps the order, and a number is rounded to itself, so the order of places is the order
of values.
-/
import Fixtures.Double.Arithmetic
import Fixtures.Proofs.Double.Nearest

namespace Fixtures.Double

variable {x y : Double} {num den num' den' n n' : Nat} {e : Int} {r r' t t' : ℚ}

/-! ## Rounding to integers -/

/-- An integer is nearest to a rational, and even if there are two of them. -/
structure RoundsTo (t : ℚ) (n : Nat) : Prop where
  low : (n : ℚ) - 1 / 2 ≤ t
  high : t ≤ n + 1 / 2
  even_low : t = n - 1 / 2 → n % 2 = 0
  even_high : t = n + 1 / 2 → n % 2 = 0

theorem roundsTo_roundHalfEven (num : Nat) (hden : 0 < den) : RoundsTo ((num : ℚ) / den) (roundHalfEven num den) := by
  have hpos : (0 : ℚ) < den := by exact_mod_cast hden
  have hsplit : (den : ℚ) * (num / den : Nat) + (num % den : Nat) = num := by exact_mod_cast Nat.div_add_mod num den
  have hmod := Nat.mod_lt num hden
  unfold roundHalfEven
  simp only
  generalize num / den = q at hsplit ⊢
  generalize num % den = rest at hsplit hmod ⊢
  -- the quotient is an integer and a part of one
  have hquotient : (num : ℚ) / den = q + rest / den := by
    rw [← hsplit]
    field_simp
  have hnonneg : (0 : ℚ) ≤ rest / den := by positivity
  have hone : (rest : ℚ) / den < 1 := by
    rw [div_lt_one hpos]
    exact_mod_cast hmod
  have hlt : 2 * rest < den ↔ (rest : ℚ) / den < 1 / 2 := by
    rw [div_lt_div_iff₀ hpos two_pos, one_mul, mul_comm]
    exact_mod_cast Iff.rfl
  have hgt : den < 2 * rest ↔ 1 / 2 < (rest : ℚ) / den := by
    rw [div_lt_div_iff₀ two_pos hpos, one_mul, mul_comm]
    exact_mod_cast Iff.rfl
  rw [hquotient]
  generalize (rest : ℚ) / den = f at hnonneg hone hlt hgt ⊢
  by_cases hless : 2 * rest < den
  · rw [if_pos hless]
    rw [hlt] at hless
    constructor <;> intros <;> linarith
  by_cases hmore : den < 2 * rest
  · rw [if_neg hless, if_pos hmore]
    rw [hgt] at hmore
    constructor <;> intros <;> push_cast at * <;> linarith
  · have hhalf : f = 1 / 2 := le_antisymm (not_lt.1 fun h => hmore (hgt.2 h)) (not_lt.1 fun h => hless (hlt.2 h))
    rw [if_neg hless, if_neg hmore, hhalf]
    split
    · rename_i heven
      exact ⟨by linarith, by linarith, fun _ => heven, fun _ => heven⟩
    · rename_i hodd
      have heven : (q + 1) % 2 = 0 := by omega
      refine ⟨?_, ?_, fun _ => heven, fun _ => heven⟩ <;> push_cast <;> linarith

theorem RoundsTo.mono (h : RoundsTo t n) (h' : RoundsTo t' n') (ht : t ≤ t') : n ≤ n' := by
  by_contra hlt
  -- two integers are nearest to both rationals, which are then the same, and both are even
  have hnext : ((n' + 1 : ℕ) : ℚ) ≤ n := by exact_mod_cast (by omega : n' + 1 ≤ n)
  push_cast at hnext
  have hlow := h.low
  have hhigh := h'.high
  have heven := h.even_low (by linarith)
  have heven' := h'.even_high (by linarith)
  have hsame : (n : ℚ) = (n' + 1 : ℕ) := by
    push_cast
    linarith
  have : n = n' + 1 := by exact_mod_cast hsame
  omega

theorem roundsTo_natCast (n : Nat) : RoundsTo n n := by
  constructor <;> intros <;> linarith

/-! ## Rounding to magnitudes -/

/-- The exponent at which a positive rational is rounded. -/
def roundingExponent (r : ℚ) : Int := max (Int.log 2 r - 52) (-1074)

theorem roundingExponent_mono (hr : 0 < r) (h : r ≤ r') : roundingExponent r ≤ roundingExponent r' := by
  have hlog := Int.log_mono_right (b := 2) hr h
  unfold roundingExponent
  omega

theorem le_of_roundingExponent (r : ℚ) : r / 2 ^ roundingExponent r ≤ (2 * unitSignificand : Nat) := by
  have hlog : r < (2 : ℚ) ^ (Int.log 2 r + 1) := by exact_mod_cast Int.lt_zpow_succ_log_self (b := 2) (by decide) r
  have hexp : Int.log 2 r + 1 ≤ 53 + roundingExponent r := by
    unfold roundingExponent
    omega
  have hunit : ((2 * unitSignificand : Nat) : ℚ) = 2 ^ (53 : Int) := by norm_num [unitSignificand]
  rw [div_le_iff₀ (by positivity), hunit, ← zpow_add₀ two_ne_zero]
  exact hlog.le.trans (zpow_le_zpow_right₀ (by norm_num) hexp)

theorem le_of_roundingExponent_ne (hr : 0 < r) (he : roundingExponent r ≠ -1074) :
    (unitSignificand : ℚ) ≤ r / 2 ^ roundingExponent r := by
  have hlog : (2 : ℚ) ^ Int.log 2 r ≤ r := by exact_mod_cast Int.zpow_log_le_self (b := 2) (by decide) hr
  have hexp : Int.log 2 r = 52 + roundingExponent r := by
    unfold roundingExponent at he ⊢
    omega
  have hunit : (unitSignificand : ℚ) = 2 ^ (52 : Int) := by norm_num [unitSignificand]
  rwa [le_div_iff₀ (by positivity), hunit, ← zpow_add₀ two_ne_zero, ← hexp]

/-- A positive fraction is rounded to a significand of 53 bits; a short one comes up at the least exponent only. -/
theorem nearestMagnitude_spec (hnum : 0 < num) (hden : 0 < den) :
    ∃ n, nearestMagnitude num den =
        min ((roundingExponent ((num : ℚ) / den) + 1074).toNat * unitSignificand + n) infinityMagnitude ∧
      RoundsTo ((num : ℚ) / den / 2 ^ roundingExponent ((num : ℚ) / den)) n ∧ n ≤ 2 * unitSignificand ∧
      (roundingExponent ((num : ℚ) / den) = -1074 ∨ unitSignificand ≤ n) := by
  have hpos : (0 : ℚ) < (num : ℚ) / den := by positivity
  obtain ⟨hdenPos, hratio⟩ := shiftRatio_spec num hden (roundingExponent ((num : ℚ) / den))
  have hrounds := roundsTo_roundHalfEven (shiftRatio num den (roundingExponent ((num : ℚ) / den))).1 hdenPos
  rw [hratio] at hrounds
  refine ⟨_, ?_, hrounds, ?_, ?_⟩
  · unfold nearestMagnitude
    rw [if_neg hnum.ne', floorLog2_eq hnum hden]
    rfl
  · exact hrounds.mono (roundsTo_natCast _) (le_of_roundingExponent _)
  · by_cases he : roundingExponent ((num : ℚ) / den) = -1074
    · exact .inl he
    · exact .inr ((roundsTo_natCast _).mono hrounds (le_of_roundingExponent_ne hpos he))

/-- Rounding to magnitudes keeps the order. -/
theorem nearestMagnitude_mono (hden : 0 < den) (hden' : 0 < den') (h : (num : ℚ) / den ≤ num' / den') :
    nearestMagnitude num den ≤ nearestMagnitude num' den' := by
  rcases Nat.eq_zero_or_pos num with rfl | hnum
  · exact Nat.zero_le _
  have hr : (0 : ℚ) < (num : ℚ) / den := by positivity
  have hnum' : 0 < num' := by
    rcases Nat.eq_zero_or_pos num' with rfl | hnum'
    · rw [Nat.cast_zero, zero_div] at h
      exact absurd hr (not_lt.2 h)
    · exact hnum'
  obtain ⟨n, hn, hrounds, hle, -⟩ := nearestMagnitude_spec hnum hden
  obtain ⟨n', hn', hrounds', -, hge'⟩ := nearestMagnitude_spec hnum' hden'
  have hexp := roundingExponent_mono hr h
  rw [hn, hn']
  refine min_le_min_right _ ?_
  rcases hexp.lt_or_eq with hlt | heq
  · -- the significand below fills its binade at most, and the one above fills its binade at least
    have hlow : -1074 ≤ roundingExponent ((num : ℚ) / den) := le_max_right _ _
    have hfull := hge'.resolve_left (by omega)
    have hbinade : ((roundingExponent ((num : ℚ) / den) + 1074).toNat + 1) * unitSignificand ≤
        (roundingExponent ((num' : ℚ) / den') + 1074).toNat * unitSignificand :=
      Nat.mul_le_mul_right _ (by omega)
    rw [Nat.succ_mul] at hbinade
    omega
  · rw [heq] at hrounds ⊢
    have hdiv := hrounds.mono hrounds' (div_le_div_of_nonneg_right h (zpow_pos two_pos _).le)
    omega

theorem nearestMagnitude_le (num den : Nat) : nearestMagnitude num den ≤ infinityMagnitude := by
  unfold nearestMagnitude
  split
  · exact Nat.zero_le _
  · exact min_le_right _ _

/-- The magnitude depends on the fraction alone. -/
theorem nearestMagnitude_congr (hden : 0 < den) (hden' : 0 < den') (h : (num : ℚ) / den = num' / den') :
    nearestMagnitude num den = nearestMagnitude num' den' :=
  le_antisymm (nearestMagnitude_mono hden hden' h.le) (nearestMagnitude_mono hden' hden h.ge)

/-! ## Places -/

theorem place_ofMagnitude {m : Nat} (negative : Bool) (hm : m < 2 ^ 63) :
    (ofMagnitude negative m).place = if negative then -(m : Int) else m := by
  rw [place, negative_ofMagnitude negative hm, magnitude_ofMagnitude negative hm]

theorem natAbs_place (x : Double) : x.place.natAbs = x.magnitude := by
  unfold place
  split <;> omega

theorem isFinite_iff : x.isFinite = true ↔ x.place.natAbs < infinityMagnitude := by
  rw [natAbs_place, isFinite, decide_eq_true_eq]

/-- What lies between finite numbers is finite. -/
theorem isFinite_of_between {low high : Double} (hlow : low.isFinite = true) (hhigh : high.isFinite = true)
    (h : low.place ≤ x.place) (h' : x.place ≤ high.place) : x.isFinite = true := by
  rw [isFinite_iff] at *
  omega

/-- The place of the number to which a rational is rounded. -/
def nearestPlace (r : ℚ) : Int :=
  if r < 0 then -(nearestMagnitude r.num.natAbs r.den : Int) else nearestMagnitude r.num.natAbs r.den

theorem natAbs_num_div_den (r : ℚ) : (r.num.natAbs : ℚ) / r.den = |r| := by
  rw [Nat.cast_natAbs, Int.cast_abs, ← Nat.abs_cast r.den, ← abs_div, Rat.num_div_den]

theorem place_ofRatio (negative : Bool) (num : Nat) (hden : 0 < den) :
    (ofRatio negative num den).place = nearestPlace ((if negative then -1 else 1) * ((num : ℚ) / den)) := by
  have hle := nearestMagnitude_le num den
  have hinfinity : infinityMagnitude < 2 ^ 63 := by decide
  have hsame (r : ℚ) (hr : |r| = (num : ℚ) / den) : nearestMagnitude r.num.natAbs r.den = nearestMagnitude num den :=
    nearestMagnitude_congr r.den_pos hden (by rw [natAbs_num_div_den, hr])
  have hnonneg : (0 : ℚ) ≤ (num : ℚ) / den := by positivity
  rw [ofRatio, place_ofMagnitude _ (by omega), nearestPlace]
  cases negative with
  | false =>
    simp only [Bool.false_eq_true, if_false, one_mul]
    rw [if_neg (not_lt.2 hnonneg), hsame _ (abs_of_nonneg hnonneg)]
  | true =>
    simp only [if_true, neg_one_mul, neg_lt_zero]
    rw [hsame _ (by rw [abs_neg, abs_of_nonneg hnonneg])]
    split
    · rfl
    · rename_i hzero
      -- the negative zero has the place of zero
      have hnum : num = 0 := by
        by_contra hne
        exact hzero (by positivity)
      rw [hnum]
      rfl

/-- Rounding keeps the order. -/
theorem nearestPlace_mono (h : r ≤ r') : nearestPlace r ≤ nearestPlace r' := by
  unfold nearestPlace
  split
  · rename_i hneg
    split
    · rename_i hneg'
      refine neg_le_neg (Int.ofNat_le.2 (nearestMagnitude_mono r'.den_pos r.den_pos ?_))
      rw [natAbs_num_div_den, natAbs_num_div_den, abs_of_neg hneg, abs_of_neg hneg']
      exact neg_le_neg h
    · omega
  · rename_i hnonneg
    rw [not_lt] at hnonneg
    rw [if_neg (not_lt.2 (hnonneg.trans h))]
    refine Int.ofNat_le.2 (nearestMagnitude_mono r.den_pos r'.den_pos ?_)
    rw [natAbs_num_div_den, natAbs_num_div_den, abs_of_nonneg hnonneg, abs_of_nonneg (hnonneg.trans h)]
    exact h

/-! ## Values -/

/-- The rational that a finite number stands for. -/
def value (x : Double) : ℚ := (if x.negative then -1 else 1) * (x.significand * 2 ^ x.exponent)

theorem value_of_isZero (hx : x.isZero = true) : x.value = 0 := by
  have hmagnitude : x.magnitude = 0 := by simpa [isZero] using hx
  rw [magnitude_eq_exponent] at hmagnitude
  rw [value, (Nat.add_eq_zero_iff.1 hmagnitude).2]
  simp

theorem value_of_nonneg (h : x.negative = false) : x.value = x.significand * 2 ^ x.exponent := by
  rw [value, h, if_neg Bool.false_ne_true, one_mul]

theorem value_nonneg (h : 0 ≤ x.place) : 0 ≤ x.value := by
  unfold place at h
  split at h
  · have hzero : x.isZero = true := by
      rw [isZero, beq_iff_eq]
      omega
    rw [value_of_isZero hzero]
  · rename_i hneg
    rw [value_of_nonneg (by simpa using hneg)]
    positivity

theorem negative_of_pos (h : 0 < x.value) : x.negative = false := by
  by_contra hneg
  have hnonneg : (0 : ℚ) ≤ x.significand * 2 ^ x.exponent := by positivity
  rw [value, if_pos (by simpa using hneg)] at h
  linarith

theorem isZero_of_pos (h : 0 < x.value) : x.isZero = false := by
  by_contra hzero
  rw [value_of_isZero (by simpa using hzero)] at h
  exact lt_irrefl _ h

theorem abs_value (x : Double) : |x.value| = x.significand * 2 ^ x.exponent := by
  have hnonneg : (0 : ℚ) ≤ x.significand * 2 ^ x.exponent := by positivity
  unfold value
  split
  · rw [neg_one_mul, abs_neg, abs_of_nonneg hnonneg]
  · rw [one_mul, abs_of_nonneg hnonneg]

/-- A number lies in its own rounding interval. -/
theorem attracts_abs_value (hx : x.isZero = false) : x.Attracts |x.value| := by
  have hs := significand_pos hx
  have hpow : (2 : ℚ) ^ x.exponent = 4 * 2 ^ (x.exponent - 2) := by
    rw [zpow_sub₀ two_ne_zero]
    norm_num
    ring
  have hpos : (0 : ℚ) < 2 ^ (x.exponent - 2) := by positivity
  have hlow : x.roundingEnds.1 < 4 * x.significand := by
    unfold roundingEnds
    simp only
    split <;> omega
  have hhigh : 4 * x.significand < x.roundingEnds.2 := by
    unfold roundingEnds
    simp only
    omega
  have hmiddle : (x.significand : ℚ) * (4 * 2 ^ (x.exponent - 2)) =
      (4 * x.significand : Nat) * 2 ^ (x.exponent - 2) := by
    push_cast
    ring
  rw [abs_value, hpow, hmiddle]
  refine ⟨.inl ?_, .inl ?_⟩
  · exact mul_lt_mul_of_pos_right (by exact_mod_cast hlow) hpos
  · exact mul_lt_mul_of_pos_right (by exact_mod_cast hhigh) hpos

/-- A finite number is rounded to itself. -/
theorem nearestPlace_value (hx : x.isFinite = true) : nearestPlace x.value = x.place := by
  cases hzero : x.isZero with
  | true =>
    have hmagnitude : x.magnitude = 0 := by simpa [isZero] using hzero
    rw [value_of_isZero hzero, place, hmagnitude]
    split <;> rfl
  | false =>
    have hmagnitude : nearestMagnitude x.value.num.natAbs x.value.den = x.magnitude := by
      refine nearestMagnitude_of_attracts hx hzero x.value.den_pos ?_
      rw [natAbs_num_div_den]
      exact attracts_abs_value hzero
    have hs : (0 : ℚ) < x.significand := by exact_mod_cast significand_pos hzero
    have hpos : (0 : ℚ) < x.significand * 2 ^ x.exponent := by positivity
    rw [nearestPlace, hmagnitude, place]
    cases hneg : x.negative with
    | true => rw [if_pos (by rw [value, hneg, if_pos rfl, neg_one_mul]; linarith), if_pos rfl]
    | false =>
      rw [if_neg (by rw [value, hneg, if_neg Bool.false_ne_true, one_mul]; linarith), if_neg Bool.false_ne_true]

/-- Only zero has two numbers. -/
theorem value_eq_of_place_eq (h : x.place = y.place) : x.value = y.value := by
  have hmagnitude : x.magnitude = y.magnitude := by rw [← natAbs_place, ← natAbs_place, h]
  cases hzero : x.isZero with
  | true =>
    have hzero' : y.isZero = true := by rwa [isZero, ← hmagnitude]
    rw [value_of_isZero hzero, value_of_isZero hzero']
  | false =>
    have hpos : x.magnitude ≠ 0 := by simpa [isZero] using hzero
    have hnegative : x.negative = y.negative := by
      unfold place at h
      cases hx : x.negative <;> cases hy : y.negative <;> simp only [hx, hy] at h ⊢ <;> simp at h <;> omega
    rw [← x.ofMagnitude_magnitude, ← y.ofMagnitude_magnitude, hnegative, hmagnitude]

/-- The order of places is the order of values. -/
theorem place_le_iff (hx : x.isFinite = true) (hy : y.isFinite = true) : x.place ≤ y.place ↔ x.value ≤ y.value := by
  constructor
  · intro h
    by_contra hlt
    have hge : y.place ≤ x.place := by
      rw [← nearestPlace_value hx, ← nearestPlace_value hy]
      exact nearestPlace_mono (not_le.1 hlt).le
    exact hlt (value_eq_of_place_eq (le_antisymm h hge)).le
  · intro h
    rw [← nearestPlace_value hx, ← nearestPlace_value hy]
    exact nearestPlace_mono h

theorem le_iff (hx : x.isFinite = true) (hy : y.isFinite = true) : x.le y = true ↔ x.value ≤ y.value := by
  rw [← place_le_iff hx hy]
  simp [le, not_isNaN_of_isFinite hx, not_isNaN_of_isFinite hy]

/-- Rounding keeps the order of values. -/
theorem value_mono (hx : x.isFinite = true) (hy : y.isFinite = true) (hr : x.place = nearestPlace r)
    (hr' : y.place = nearestPlace r') (h : r ≤ r') : x.value ≤ y.value := by
  rw [← place_le_iff hx hy, hr, hr']
  exact nearestPlace_mono h

theorem le_of_le_of_le {x y z : Double} (h : x.le y = true) (h' : y.le z = true) : x.le z = true := by
  simp only [le, Bool.and_eq_true, Bool.not_eq_true', decide_eq_true_eq] at *
  exact ⟨⟨h.1.1, h'.1.2⟩, h.2.trans h'.2⟩

end Fixtures.Double
