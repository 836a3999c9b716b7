/-
Arithmetic on finite numbers. The result of an operation has the place of the exact result: it is the number to which
this is rounded. So every operation keeps the order that the exact one keeps.
-/
import Fixtures.Proofs.Double.Order

namespace Fixtures.Double

variable {x y : Double} {n : Nat} {e : Int}

/-! ## Multiples of powers of two -/

theorem value_signedAt (he : e ≤ x.exponent) : (x.signedAt e : ℚ) * 2 ^ e = x.value := by
  obtain ⟨k, hk⟩ := Int.eq_ofNat_of_zero_le (Int.sub_nonneg.2 he)
  have hexp : x.exponent = k + e := by omega
  have hpow : (2 : ℚ) ^ x.exponent = 2 ^ k * 2 ^ e := by
    rw [hexp, zpow_add₀ two_ne_zero, zpow_natCast]
  unfold signedAt value
  rw [hpow, hk, Int.toNat_natCast]
  cases x.negative <;> simp <;> ring

theorem place_ofScaled (negative : Bool) (n : Nat) (e : Int) :
    (ofScaled negative n e).place = nearestPlace ((if negative then -1 else 1) * (n * 2 ^ e)) := by
  obtain ⟨hden, hratio⟩ := shiftRatio_spec n Nat.one_pos (-e)
  have hexact : ((shiftRatio n 1 (-e)).1 : ℚ) / (shiftRatio n 1 (-e)).2 = n * 2 ^ e := by
    rw [hratio, Nat.cast_one, div_one, zpow_neg, div_inv_eq_mul]
  unfold ofScaled
  rw [place_ofRatio _ _ hden, hexact]

/-- A signed multiple of a power of two is rounded. -/
theorem place_ofScaled_int (n : Int) (e : Int) : (ofScaled (n < 0) n.natAbs e).place = nearestPlace (n * 2 ^ e) := by
  rw [place_ofScaled]
  congr 1
  rcases Int.lt_or_le n 0 with hn | hn
  · rw [if_pos (by simpa using hn), Nat.cast_natAbs, abs_of_neg hn]
    push_cast
    ring
  · rw [if_neg (by simpa using hn), Nat.cast_natAbs, abs_of_nonneg hn, one_mul]

theorem nearestPlace_zero : nearestPlace 0 = 0 := rfl

/-! ## Sign -/

theorem xor_signBit {m : Nat} (hm : m < 2 ^ 63) : m ^^^ 2 ^ 63 = 2 ^ 63 + m := by
  have hor := Nat.two_pow_add_eq_or_of_lt hm 1
  rw [Nat.mul_one] at hor
  rw [hor]
  refine Nat.eq_of_testBit_eq fun i => ?_
  rw [Nat.testBit_xor, Nat.testBit_or, Nat.testBit_two_pow]
  by_cases hi : 63 = i
  · subst hi
    rw [Nat.testBit_lt_two_pow hm]
    rfl
  · simp [hi]

theorem neg_eq (x : Double) : x.neg = ofMagnitude (!x.negative) x.magnitude := by
  have hxor := xor_signBit x.magnitude_lt
  have hbits := toNat_ofMagnitude x.negative x.magnitude_lt
  rw [ofMagnitude_magnitude] at hbits
  have htoNat : x.neg.bits.toNat = (ofMagnitude (!x.negative) x.magnitude).bits.toNat := by
    rw [toNat_ofMagnitude _ x.magnitude_lt, neg, UInt64.toNat_xor, hbits]
    show _ ^^^ 2 ^ 63 = _
    cases x.negative with
    | false => simpa using hxor
    | true => rw [if_pos rfl, ← hxor, Nat.xor_assoc, Nat.xor_self]; simp
  exact congrArg Double.mk (UInt64.toNat_inj.1 htoNat)

theorem value_neg (x : Double) : x.neg.value = -x.value := by
  obtain ⟨hsignificand, hexponent⟩ := units_of_magnitude_eq (magnitude_ofMagnitude (!x.negative) x.magnitude_lt)
  rw [neg_eq, value, value, negative_ofMagnitude _ x.magnitude_lt, hsignificand, hexponent]
  cases x.negative <;> simp

theorem isFinite_neg (hx : x.isFinite = true) : x.neg.isFinite = true := by
  rw [neg_eq, isFinite, magnitude_ofMagnitude _ x.magnitude_lt]
  exact hx

/-! ## Sum, product, quotient -/

theorem place_add (hx : x.isFinite = true) (hy : y.isFinite = true) :
    (x.add y).place = nearestPlace (x.value + y.value) := by
  have hsum : ((x.signedAt (min x.exponent y.exponent) + y.signedAt (min x.exponent y.exponent) : Int) : ℚ) *
      2 ^ min x.exponent y.exponent = x.value + y.value := by
    push_cast
    rw [add_mul, value_signedAt (min_le_left _ _), value_signedAt (min_le_right _ _)]
  unfold add
  simp only [not_isNaN_of_isFinite hx, not_isNaN_of_isFinite hy, not_isInfinite_of_isFinite hx,
    not_isInfinite_of_isFinite hy, Bool.or_self, Bool.false_eq_true, if_false]
  split
  · rename_i hzero
    rw [hzero, Int.cast_zero, zero_mul] at hsum
    rw [← hsum, nearestPlace_zero, zero, place_ofMagnitude _ (by decide)]
    split <;> rfl
  · rw [place_ofScaled_int, hsum]

theorem place_sub (hx : x.isFinite = true) (hy : y.isFinite = true) :
    (x.sub y).place = nearestPlace (x.value - y.value) := by
  rw [sub, place_add hx (isFinite_neg hy), value_neg, sub_eq_add_neg]

theorem place_mul (hx : x.isFinite = true) (hy : y.isFinite = true) :
    (x.mul y).place = nearestPlace (x.value * y.value) := by
  unfold mul
  simp only [not_isNaN_of_isFinite hx, not_isNaN_of_isFinite hy, not_isInfinite_of_isFinite hx,
    not_isInfinite_of_isFinite hy, Bool.or_self, Bool.false_eq_true, if_false]
  rw [place_ofScaled]
  congr 1
  unfold value
  rw [zpow_add₀ two_ne_zero]
  push_cast
  cases x.negative <;> cases y.negative <;> simp <;> ring

theorem place_div (hx : x.isFinite = true) (hy : y.isFinite = true) (hzero : y.isZero = false) :
    (x.div y).place = nearestPlace (x.value / y.value) := by
  have hs := significand_pos hzero
  obtain ⟨hden, hratio⟩ := shiftRatio_spec x.significand hs (y.exponent - x.exponent)
  unfold div
  simp only [not_isNaN_of_isFinite hx, not_isNaN_of_isFinite hy, not_isInfinite_of_isFinite hx,
    not_isInfinite_of_isFinite hy, hzero, Bool.or_self, Bool.false_eq_true, if_false]
  rw [place_ofRatio _ _ hden, hratio]
  congr 1
  unfold value
  have hpos : (0 : ℚ) < y.significand := by exact_mod_cast hs
  rw [zpow_sub₀ two_ne_zero]
  cases x.negative <;> cases y.negative <;> simp <;> field_simp

/-! ## Whole numbers -/

/-- The nearest integer, a half going away from zero. -/
def halfAway (r : ℚ) : Int := if 0 ≤ r then ⌊r + 1 / 2⌋ else -⌊-r + 1 / 2⌋

theorem halfAway_mono {r r' : ℚ} (h : r ≤ r') : halfAway r ≤ halfAway r' := by
  unfold halfAway
  split
  · rename_i hr
    rw [if_pos (hr.trans h)]
    exact Int.floor_mono (by linarith)
  · rename_i hr
    have hfloor : 0 ≤ ⌊-r + 1 / 2⌋ := Int.floor_nonneg.2 (by linarith [not_le.1 hr])
    split
    · rename_i hr'
      have hfloor' : 0 ≤ ⌊r' + 1 / 2⌋ := Int.floor_nonneg.2 (by linarith)
      omega
    · exact neg_le_neg (Int.floor_mono (by linarith))

theorem halfAway_natCast (n : Nat) : halfAway n = n := by
  unfold halfAway
  rw [if_pos (Nat.cast_nonneg n), Int.floor_eq_iff]
  push_cast
  constructor <;> linarith

theorem halfAway_neg {r : ℚ} (hr : 0 ≤ r) : halfAway (-r) = -halfAway r := by
  rcases hr.eq_or_lt with rfl | hpos
  · have hzero := halfAway_natCast 0
    rw [Nat.cast_zero] at hzero
    rw [neg_zero, hzero]
    rfl
  · unfold halfAway
    rw [if_neg (by linarith), if_pos hr, neg_neg]

theorem place_round (hx : x.isFinite = true) : x.round.place = nearestPlace (halfAway x.value) := by
  have hsign : x.value = (if x.negative then -1 else 1) * |x.value| := by
    rw [abs_value]
    rfl
  have hround : (halfAway x.value : ℚ) = (if x.negative then -1 else 1) * (halfAway |x.value| : ℚ) := by
    rw [hsign, abs_mul, abs_abs]
    cases x.negative with
    | false => simp
    | true => simp [halfAway_neg (abs_nonneg x.value)]
  unfold round
  rw [hx]
  split
  · -- a number of whole units is an integer
    rename_i hexp
    have hexp : 0 ≤ x.exponent := by simpa using hexp
    obtain ⟨k, hk⟩ := Int.eq_ofNat_of_zero_le hexp
    have hwhole : |x.value| = (x.significand * 2 ^ k : Nat) := by
      rw [abs_value, hk, zpow_natCast]
      push_cast
      rfl
    rw [hround, hwhole, halfAway_natCast, Int.cast_natCast, ← hwhole, ← hsign, nearestPlace_value hx]
  · rename_i hexp
    have hexp : x.exponent < 0 := by simpa using hexp
    obtain ⟨k, hk⟩ : ∃ k : Nat, x.exponent = -(k : Int) := ⟨(-x.exponent).toNat, by omega⟩
    have hhalf : |x.value| + 1 / 2 = ((2 * x.significand + 2 ^ k : Nat) : ℚ) / (2 * 2 ^ k : Nat) := by
      rw [abs_value, hk, zpow_neg, zpow_natCast]
      push_cast
      field_simp
    have hfloor : halfAway |x.value| = ((2 * x.significand + 2 ^ k) / (2 * 2 ^ k) : Nat) := by
      rw [halfAway, if_pos (abs_nonneg _), hhalf, Rat.floor_natCast_div_natCast]
      rfl
    simp only [hk, neg_neg, Int.toNat_natCast, Nat.pow_eq]
    rw [place_ofScaled, hround, zpow_zero, mul_one, hfloor, Int.cast_natCast]

end Fixtures.Double
