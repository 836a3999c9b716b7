/-
The shortest decimal. Whatever a search on grids of powers of ten finds lies in the rounding interval of the
number, and twenty grids always suffice: the finest of them has a step below half a unit of the last place.
-/
import Fixtures.Proofs.Double.Nearest
import Mathlib.Order.Compare

namespace Fixtures

/-! ## Exact comparisons -/

theorem zpow_eq_div {b : ℚ} (hb : b ≠ 0) (e : Int) : b ^ e = b ^ e.toNat / b ^ (-e).toNat := by
  rw [eq_div_iff (by positivity), ← zpow_natCast, ← zpow_natCast, ← zpow_add₀ hb]
  congr 1
  omega

namespace Decimal

/-- The rational that a decimal stands for. -/
def value (d : Decimal) : ℚ := d.digits * 10 ^ d.power

theorem compareBinary_eq (a : Nat) (p : Int) (b : Nat) (q : Int) :
    compareBinary a p b q = compare ((a : ℚ) * 10 ^ p) (b * 2 ^ q) := by
  have hten : (0 : ℚ) < 10 ^ (-p).toNat := by positivity
  have htwo : (0 : ℚ) < 2 ^ (-q).toNat := by positivity
  rw [zpow_eq_div (b := 10) (by norm_num) p, zpow_eq_div (b := 2) (by norm_num) q]
  unfold compareBinary
  simp only [Nat.pow_eq]
  rcases lt_trichotomy (a * 10 ^ p.toNat * 2 ^ (-q).toNat) (b * 2 ^ q.toNat * 10 ^ (-p).toNat) with h | h | h
  · rw [compare_lt_iff_lt.2 h, eq_comm, compare_lt_iff_lt, ← mul_div_assoc, ← mul_div_assoc, div_lt_div_iff₀ hten htwo]
    exact_mod_cast h
  · rw [compare_eq_iff_eq.2 h, eq_comm, compare_eq_iff_eq, ← mul_div_assoc, ← mul_div_assoc,
      div_eq_div_iff hten.ne' htwo.ne']
    exact_mod_cast h
  · rw [compare_gt_iff_gt.2 h, eq_comm, compare_gt_iff_gt, ← mul_div_assoc, ← mul_div_assoc, div_lt_div_iff₀ htwo hten]
    exact_mod_cast h

end Decimal

namespace Double

variable {x : Double} {p : Int} {d : Decimal}

/-- The check of a decimal is exact. -/
theorem roundsFrom_iff (x : Double) (d : Decimal) : x.roundsFrom d = true ↔ x.Attracts d.value := by
  unfold roundsFrom Attracts Decimal.value
  simp only [Decimal.compareBinary_eq, Bool.and_eq_true]
  refine and_congr ?_ ?_
  · generalize (d.digits : ℚ) * 10 ^ d.power = r
    generalize (x.roundingEnds.1 : ℚ) * 2 ^ (x.exponent - 2) = low
    rcases lt_trichotomy r low with h | h | h
    · rw [compare_lt_iff_lt.2 h]
      simp [h.not_gt, h.ne']
    · rw [compare_eq_iff_eq.2 h]
      simp [h]
    · rw [compare_gt_iff_gt.2 h]
      simp [h]
  · generalize (d.digits : ℚ) * 10 ^ d.power = r
    generalize (x.roundingEnds.2 : ℚ) * 2 ^ (x.exponent - 2) = high
    rcases lt_trichotomy r high with h | h | h
    · rw [compare_lt_iff_lt.2 h]
      simp [h]
    · rw [compare_eq_iff_eq.2 h]
      simp [h]
    · rw [compare_gt_iff_gt.2 h]
      simp [h.not_gt, h.ne']

/-! ## The search -/

/-- What a grid gives is one of both neighbours, other than zero, and rounds to the number. -/
theorem onGrid?_eq_some (h : x.onGrid? p = some d) : x.roundsFrom d = true ∧ d.digits ≠ 0 := by
  unfold onGrid? at h
  simp only at h
  have hbelow (hb : (x.floorOnGrid p != 0 && x.roundsFrom ⟨x.floorOnGrid p, p⟩) = true) :
      x.roundsFrom ⟨x.floorOnGrid p, p⟩ = true ∧ x.floorOnGrid p ≠ 0 := by
    rw [Bool.and_eq_true, bne_iff_ne] at hb
    exact hb.symm
  have habove (ha : x.roundsFrom ⟨x.floorOnGrid p + 1, p⟩ = true) :
      x.roundsFrom ⟨x.floorOnGrid p + 1, p⟩ = true ∧ x.floorOnGrid p + 1 ≠ 0 := ⟨ha, Nat.succ_ne_zero _⟩
  split at h
  · cases h
  · rename_i hb _
    cases h
    exact hbelow hb
  · rename_i _ ha
    cases h
    exact habove ha
  · -- both round to the number, and the side decides
    rename_i hb ha
    split at h <;> cases h
    · exact habove ha
    · exact hbelow hb
    · split
      · exact hbelow hb
      · exact habove ha

/-- The floor of a number on a grid is not above it, and the next step is. -/
theorem floorOnGrid_spec (x : Double) (p : Int) :
    (x.floorOnGrid p : ℚ) * 10 ^ p ≤ x.significand * 2 ^ x.exponent ∧
      (x.significand : ℚ) * 2 ^ x.exponent < (x.floorOnGrid p + 1) * 10 ^ p := by
  have hten : (0 : ℚ) < 10 ^ (-p).toNat := by positivity
  have htwo : (0 : ℚ) < 2 ^ (-x.exponent).toNat := by positivity
  rw [zpow_eq_div (b := 10) (by norm_num) p, zpow_eq_div (b := 2) (by norm_num) x.exponent, ← mul_div_assoc,
    ← mul_div_assoc, ← mul_div_assoc, div_le_div_iff₀ hten htwo, div_lt_div_iff₀ htwo hten]
  -- the floor is the quotient of two integers
  have hdiv : x.floorOnGrid p = x.significand * 2 ^ x.exponent.toNat * 10 ^ (-p).toNat /
      (2 ^ (-x.exponent).toNat * 10 ^ p.toNat) := rfl
  have hpos : 0 < 2 ^ (-x.exponent).toNat * 10 ^ p.toNat := by positivity
  generalize x.floorOnGrid p = a at hdiv
  have hle : a * 10 ^ p.toNat * 2 ^ (-x.exponent).toNat ≤ x.significand * 2 ^ x.exponent.toNat * 10 ^ (-p).toNat := by
    rw [mul_assoc, mul_comm (10 ^ p.toNat)]
    exact (Nat.le_div_iff_mul_le hpos).1 hdiv.le
  have hlt : x.significand * 2 ^ x.exponent.toNat * 10 ^ (-p).toNat <
      (a + 1) * 10 ^ p.toNat * 2 ^ (-x.exponent).toNat := by
    rw [mul_assoc (a + 1), mul_comm (10 ^ p.toNat)]
    exact (Nat.div_lt_iff_lt_mul hpos).1 (hdiv ▸ Nat.lt_succ_self a)
  exact ⟨by exact_mod_cast hle, by exact_mod_cast hlt⟩

/-- A grid with a step of at most half a unit of the last place holds a decimal that rounds to the number. -/
theorem onGrid?_of_fine (hp : (10 : ℚ) ^ p < 2 ^ x.exponent / 2) : (x.onGrid? p).isSome = true := by
  obtain ⟨hle, hlt⟩ := x.floorOnGrid_spec p
  have habove : x.roundsFrom ⟨x.floorOnGrid p + 1, p⟩ = true := by
    rw [roundsFrom_iff]
    have hpow : (2 : ℚ) ^ (x.exponent - 2) = 2 ^ x.exponent / 4 := by
      rw [zpow_sub₀ two_ne_zero]; norm_num
    have hlow : (x.roundingEnds.1 : ℚ) ≤ 4 * x.significand := by
      have : x.roundingEnds.1 ≤ 4 * x.significand := by
        simp only [roundingEnds]
        split <;> omega
      exact_mod_cast this
    have hhigh : (x.roundingEnds.2 : ℚ) = 4 * x.significand + 2 := by
      simp [roundingEnds]
    have hpos : (0 : ℚ) < 2 ^ x.exponent := by positivity
    unfold Attracts Decimal.value
    rw [hpow, hhigh]
    push_cast
    constructor
    · left
      nlinarith
    · left
      linarith
  unfold onGrid?
  simp only [habove]
  cases x.floorOnGrid p != 0 && x.roundsFrom ⟨x.floorOnGrid p, p⟩
  · rfl
  · simp only
    split <;> rfl

/-- The search ends on a grid if one of those that it tries is fine enough. -/
theorem attracts_of_searchGrids {fuel i : Nat} (hi : i < fuel) (hp : (10 : ℚ) ^ (p - i) < 2 ^ x.exponent / 2) :
    x.Attracts (x.searchGrids fuel p).value ∧ (x.searchGrids fuel p).digits ≠ 0 := by
  induction fuel generalizing p i with
  | zero => exact absurd hi (Nat.not_lt_zero i)
  | succ fuel ih =>
    unfold searchGrids
    cases hgrid : x.onGrid? p with
    | some d =>
      obtain ⟨hrounds, hdigits⟩ := onGrid?_eq_some hgrid
      rw [Option.getD_some]
      exact ⟨(roundsFrom_iff x d).1 hrounds, hdigits⟩
    | none =>
      rw [Option.getD_none]
      -- a grid that is fine enough would not have missed, so it is among the finer ones
      cases i with
      | zero =>
        have hsome := onGrid?_of_fine (p := p) (by simpa using hp)
        rw [hgrid] at hsome
        cases hsome
      | succ i =>
        refine ih (Nat.lt_of_succ_lt_succ hi) ?_
        rwa [show p - 1 - (i : Int) = p - (i + 1 : Nat) by push_cast; ring]

/-- Ten to the power 0.30103 is two, within a part in a hundred thousand. -/
theorem ten_pow_bounds : (2 : ℚ) ^ 100000 ≤ 10 ^ 30103 ∧ (10 : ℚ) ^ 30103 ≤ 2 ^ 100001 := by
  have hnat : 2 ^ 100000 ≤ 10 ^ 30103 ∧ 10 ^ 30103 ≤ 2 ^ 100001 := by decide +kernel
  exact_mod_cast hnat

/-- A power of ten guessed from a power of two is at most the next one. -/
theorem ten_zpow_le {k q : Int} (hk : k ≤ 100000) (hq : q * 100000 ≤ k * 30103) : (10 : ℚ) ^ q ≤ 2 ^ (k + 1) := by
  obtain ⟨hlow, hhigh⟩ := ten_pow_bounds
  have hpow : ((10 : ℚ) ^ q) ^ 100000 ≤ (2 ^ (k + 1)) ^ 100000 := by
    calc ((10 : ℚ) ^ q) ^ 100000 = 10 ^ (q * 100000) := by rw [← zpow_natCast, ← zpow_mul]; rfl
      _ ≤ 10 ^ (30103 * k) := zpow_le_zpow_right₀ (by norm_num) (by omega)
      _ = (10 ^ 30103) ^ k := by rw [zpow_mul]; rfl
      _ ≤ 2 ^ (100000 * k + max k 0) := by
          rcases le_total 0 k with hk' | hk'
          · rw [max_eq_left hk', show 100000 * k + k = 100001 * k by ring, zpow_mul]
            exact zpow_le_zpow_left₀ hk' (by positivity) hhigh
          · rw [max_eq_right hk', add_zero, zpow_mul]
            obtain ⟨n, rfl⟩ : ∃ n : Nat, k = -(n : Int) := ⟨(-k).toNat, by omega⟩
            rw [zpow_neg, zpow_neg, zpow_natCast, zpow_natCast]
            exact inv_anti₀ (by positivity) (pow_le_pow_left₀ (by positivity) hlow n)
      _ ≤ 2 ^ ((k + 1) * 100000) := zpow_le_zpow_right₀ (by norm_num) (by omega)
      _ = (2 ^ (k + 1)) ^ 100000 := by rw [← zpow_natCast, ← zpow_mul]; rfl
  exact (pow_le_pow_iff_left₀ (by positivity) (by positivity) (by norm_num)).1 hpow

/-- The twentieth grid is fine enough. -/
theorem last_grid_fine (hfinite : x.isFinite = true) (hx : x.isZero = false) :
    (10 : ℚ) ^ (x.leadingGuess - (19 : Nat)) < 2 ^ x.exponent / 2 := by
  have hs := significand_pos hx
  have hlog : x.significand.log2 ≤ 52 := by
    have hlt : x.significand < 2 ^ 53 := x.significand_lt
    have := (Nat.log2_lt hs.ne').2 hlt
    omega
  have hexp := exponent_le_of_isFinite hfinite
  generalize hk : (x.significand.log2 : Int) + x.exponent = k
  have hguess : x.leadingGuess = (k * 30103).fdiv 100000 + 1 := by
    unfold leadingGuess
    rw [hk]
  have hdiv : (k * 30103).fdiv 100000 * 100000 ≤ k * 30103 := by
    rw [Int.fdiv_eq_ediv_of_nonneg _ (by norm_num)]
    exact Int.ediv_mul_le _ (by norm_num)
  have hpos : (0 : ℚ) < 2 ^ x.exponent := by positivity
  rw [hguess]
  calc (10 : ℚ) ^ ((k * 30103).fdiv 100000 + 1 - (19 : Nat))
      = 10 ^ (k * 30103).fdiv 100000 / 10 ^ 18 := by
        rw [show (k * 30103).fdiv 100000 + 1 - (19 : Nat) = (k * 30103).fdiv 100000 - (18 : Nat) by push_cast; ring,
          zpow_sub₀ (by norm_num), zpow_natCast]
    _ ≤ 2 ^ (k + 1) / 10 ^ 18 := by
        gcongr
        exact ten_zpow_le (by omega) hdiv
    _ ≤ 2 ^ (53 + x.exponent) / 10 ^ 18 := by
        exact div_le_div_of_nonneg_right (zpow_le_zpow_right₀ (by norm_num) (by omega)) (by positivity)
    _ = 2 ^ 53 / 10 ^ 18 * 2 ^ x.exponent := by
        rw [zpow_add₀ two_ne_zero]
        norm_num
        ring
    _ < 2 ^ x.exponent / 2 := by
        norm_num
        linarith

end Double

/-! ## The shortest decimal -/

/-- A decimal without its trailing zeros has the same value. -/
theorem Decimal.trim_spec (fuel : Nat) (d : Decimal) (hd : d.digits ≠ 0) :
    (d.trim fuel).value = d.value ∧ (d.trim fuel).digits ≠ 0 := by
  induction fuel generalizing d with
  | zero => exact ⟨rfl, hd⟩
  | succ fuel ih =>
    unfold trim
    split
    · rename_i hzero
      obtain ⟨n, hn⟩ := Nat.dvd_of_mod_eq_zero hzero.2
      obtain ⟨hvalue, hdigits⟩ := ih ⟨d.digits / 10, d.power + 1⟩ (by simp only; omega)
      refine ⟨hvalue.trans ?_, hdigits⟩
      simp only [value, hn, Nat.mul_div_cancel_left n (by decide : 0 < 10)]
      rw [zpow_add_one₀ (by norm_num)]
      push_cast
      ring
    · exact ⟨rfl, hd⟩

/-- The shortest decimal of a finite number other than zero lies in its rounding interval. -/
theorem Double.attracts_shortest {x : Double} (hfinite : x.isFinite = true) (hx : x.isZero = false) :
    x.Attracts x.shortest.value ∧ x.shortest.digits ≠ 0 := by
  obtain ⟨hattracts, hdigits⟩ := attracts_of_searchGrids (by decide : 19 < 20) (last_grid_fine hfinite hx)
  obtain ⟨hvalue, hdigits'⟩ := Decimal.trim_spec 20 (x.searchGrids 20 x.leadingGuess) hdigits
  unfold shortest
  rw [hx]
  exact ⟨hvalue.symm ▸ hattracts, hdigits'⟩

end Fixtures
