/-
Numerals of floating-point numbers. The numeral of a decimal has the value of the decimal in each of its
forms, and reading the shortest numeral of a finite number as the nearest number gives the same number, down
to the sign of a zero.
-/
import Fixtures.Proofs.Decimal.Digits
import Fixtures.Proofs.Decimal.Shortest

namespace Fixtures

/-! ## Values -/

namespace Numeral

/-- The rational that a numeral without its sign stands for. -/
def absValue (n : Numeral) : ℚ := digitsValue (n.whole ++ n.fraction) * 10 ^ n.lastPower

/-- The value from digits that end in zeros. -/
theorem absValue_eq {n : Numeral} {digits : Nat} {p : Int} (zeros : Nat) (hpower : n.lastPower + zeros = p)
    (hdigits : digitsValue (n.whole ++ n.fraction) = 10 ^ zeros * digits) : n.absValue = digits * 10 ^ p := by
  rw [absValue, hdigits, ← hpower, zpow_add₀ (by norm_num), zpow_natCast]
  push_cast
  ring

end Numeral

namespace Decimal

variable {d : Decimal} {style : FloatStyle} {negative : Bool}

theorem negative_numeral : (d.numeral style negative).negative = negative := by
  unfold numeral
  simp only
  repeat' split
  all_goals rfl

theorem absValue_numeral (hd : d.digits ≠ 0) : (d.numeral style negative).absValue = d.value := by
  have hlength := length_natDigits_pos d.digits
  unfold numeral leadingPower value
  simp only [if_neg hd]
  split
  · split
    · -- zeros up to the point, and one behind it
      refine Numeral.absValue_eq (d.power.toNat + 1) ?_ ?_
      · simp only [Numeral.lastPower, Option.getD_none, List.length_singleton]
        omega
      · simp only [digitsValue_append, digitsValue_natDigits, digitsValue_replicate_zero, List.length_replicate,
          List.length_singleton, show digitsValue ['0'] = 0 from rfl]
        ring
    split
    · -- the point among the digits
      refine Numeral.absValue_eq 0 ?_ ?_
      · simp only [Numeral.lastPower, Option.getD_none, List.length_drop]
        omega
      · simp only [List.take_append_drop, digitsValue_natDigits, pow_zero, one_mul]
    · -- zeros behind the point
      refine Numeral.absValue_eq 0 ?_ ?_
      · simp only [Numeral.lastPower, Option.getD_none, List.length_append, List.length_replicate]
        omega
      · simp only [digitsValue_append, digitsValue_natDigits, digitsValue_replicate_zero,
          show digitsValue ['0'] = 0 from rfl, mul_zero, zero_add, pow_zero, one_mul]
  · refine Numeral.absValue_eq 0 ?_ ?_
    · simp only [Numeral.lastPower, Option.getD_some, List.length_drop]
      omega
    · simp only [List.take_append_drop, digitsValue_natDigits, pow_zero, one_mul]

end Decimal

/-! ## Reading back -/

namespace Double

variable {x : Double} {r : ℚ}

/-- What is rounded to a finite number other than zero is far from where a numeral counts as zero or infinite. -/
theorem Attracts.range (hfinite : x.isFinite = true) (hx : x.isZero = false) (h : x.Attracts r) :
    (10 : ℚ) ^ (-324 : Int) < r ∧ r < 10 ^ (310 : Int) := by
  obtain ⟨hlow, hhigh, -⟩ := h.units hx
  have hpos : (0 : ℚ) < 2 ^ x.exponent := by positivity
  have hr : r = r / 2 ^ x.exponent * 2 ^ x.exponent := by
    rw [div_mul_cancel₀ _ hpos.ne']
  have hleast : (1 : ℚ) ≤ x.significand := by exact_mod_cast significand_pos hx
  have hfull : (x.significand : ℚ) + 1 ≤ 2 ^ 53 := by
    exact_mod_cast (x.significand_lt : x.significand + 1 ≤ 2 ^ 53)
  generalize r / 2 ^ x.exponent = t at hlow hhigh hr
  have hhalf : 1 / 2 ≤ t := by
    rcases hlow with hlow | ⟨-, hlow⟩ <;> linarith
  have ht : t < 2 ^ 53 := by
    rcases hhigh with hhigh | ⟨-, hhigh⟩ <;> linarith
  have hends : 2 * 2 ^ 1074 < 10 ^ 324 ∧ 2 ^ 53 * 2 ^ 971 < 10 ^ 310 := by decide +kernel
  have hlowEnd : (2 : ℚ) * 2 ^ 1074 < 10 ^ 324 := by exact_mod_cast hends.1
  have hhighEnd : (2 : ℚ) ^ 53 * 2 ^ 971 < 10 ^ 310 := by exact_mod_cast hends.2
  rw [hr]
  constructor
  · calc (10 : ℚ) ^ (-324 : Int) = (10 ^ 324)⁻¹ := rfl
      _ < (2 * 2 ^ 1074)⁻¹ := inv_strictAnti₀ (by positivity) hlowEnd
      _ = 1 / 2 * 2 ^ (-1074 : Int) := by
          rw [mul_inv, one_div]
          rfl
      _ ≤ t * 2 ^ x.exponent := by
          refine mul_le_mul hhalf (zpow_le_zpow_right₀ (by norm_num) x.exponent_ge) (by positivity) (by linarith)
  · calc t * 2 ^ x.exponent < 2 ^ 53 * 2 ^ x.exponent := mul_lt_mul_of_pos_right ht hpos
      _ ≤ 2 ^ 53 * 2 ^ (971 : Int) :=
          mul_le_mul_of_nonneg_left (zpow_le_zpow_right₀ (by norm_num) (exponent_le_of_isFinite hfinite))
            (by positivity)
      _ < 10 ^ (310 : Int) := hhighEnd

/-- A numeral in the rounding interval of a finite number is read as this number. -/
theorem nearest_of_attracts {n : Numeral} (hfinite : x.isFinite = true) (hx : x.isZero = false)
    (h : x.Attracts n.absValue) (hsign : n.negative = x.negative) : n.nearest = x := by
  obtain ⟨hlow, hhigh⟩ := h.range hfinite hx
  have hten : (1 : ℚ) < 10 := by norm_num
  unfold Numeral.absValue at h hlow hhigh
  unfold Numeral.nearest
  simp only
  generalize n.lastPower = power at *
  generalize digitsValue (n.whole ++ n.fraction) = digits at *
  have hdigits : digits ≠ 0 := by
    rintro rfl
    have := h.pos hx
    simp at this
  have hpos : (0 : ℚ) < 10 ^ power := by positivity
  have hmore : (digits : ℚ) * 10 ^ power < 10 ^ (power + (natDigits digits).length) := by
    rw [zpow_add₀ (by norm_num), mul_comm, zpow_natCast]
    exact mul_lt_mul_of_pos_left (by exact_mod_cast lt_ten_pow_length_natDigits digits) hpos
  have hless : (10 : ℚ) ^ (power + ((natDigits digits).length - 1 : Nat)) ≤ digits * 10 ^ power := by
    rw [zpow_add₀ (by norm_num), mul_comm, zpow_natCast]
    exact mul_le_mul_of_nonneg_right (by exact_mod_cast ten_pow_length_natDigits_le hdigits) hpos.le
  have hsize := length_natDigits_pos digits
  have hbig := (zpow_lt_zpow_iff_right₀ hten).1 (hlow.trans hmore)
  have hsmall := (zpow_lt_zpow_iff_right₀ hten).1 (hless.trans_lt hhigh)
  rw [if_neg (by simp [hdigits]; omega), if_neg (by omega), hsign]
  unfold ofRatio
  split
  · rename_i hpower
    obtain ⟨k, rfl⟩ := Int.eq_ofNat_of_zero_le hpower
    rw [nearestMagnitude_of_attracts hfinite hx one_pos (by simpa using h), ofMagnitude_magnitude]
  · rename_i hpower
    obtain ⟨k, rfl⟩ : ∃ k : Nat, power = -(k : Int) := ⟨(-power).toNat, by omega⟩
    have hvalue : (digits : ℚ) * 10 ^ (-(k : Int)) = digits / (10 ^ k : Nat) := by
      rw [zpow_neg, zpow_natCast]
      push_cast
      rfl
    rw [hvalue] at h
    simp only [neg_neg, Int.toNat_natCast, Nat.pow_eq]
    rw [nearestMagnitude_of_attracts hfinite hx (by positivity) h, ofMagnitude_magnitude]

/-- The shortest numeral of a finite number is read as the number itself, in every style. -/
theorem nearest_of_numeral? {style : FloatStyle} {n : Numeral} (h : x.numeral? style = some n) : n.nearest = x := by
  unfold numeral? at h
  split at h
  · rename_i hfinite
    cases h
    cases hx : x.isZero with
    | true =>
      have hshortest : x.shortest = ⟨0, 0⟩ := by
        unfold shortest
        rw [hx]
        rfl
      have hmagnitude : x.magnitude = 0 := by simpa [isZero] using hx
      rw [hshortest]
      show zero x.negative = x
      unfold zero
      rw [← hmagnitude, ofMagnitude_magnitude]
    | false =>
      obtain ⟨hattracts, hdigits⟩ := attracts_shortest hfinite hx
      refine nearest_of_attracts hfinite hx ?_ Decimal.negative_numeral
      rw [Decimal.absValue_numeral hdigits]
      exact hattracts
  · cases h

end Double

end Fixtures
