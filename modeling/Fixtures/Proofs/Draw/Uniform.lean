/-
Uniform draws stay in their range. Integers of every width, sizes and choices from a list never fail
on a range that is not empty: this holds for the range that takes up the whole width, and the carry
that a second word may bring never leads past the upper end.
-/
import Fixtures.Proofs.Draw.Outcome
import Fixtures.Random.Uniform

namespace Fixtures

theorem Width.modulus_pos (w : Width) : 0 < w.modulus := by cases w <;> decide

/-- The number of sizes up to a bound fits the width for this bound. -/
theorem Width.succ_le_modulus_forSize {high : Nat} (h : high < UInt64.size) :
    high + 1 ≤ (Width.forSize high).modulus := by
  unfold Width.forSize
  split
  · assumption
  · exact h

namespace Draw

variable {σ : Type} [WordSource σ] {E : DrawError → Prop}

/-! ## Words -/

theorem ends_word (width : Width) : (word width : Draw σ Nat).Ends (· < width.modulus) E := by
  cases width with
  | narrow => exact ends_word32.map fun w _ => w.toNat_lt_size
  | wide => exact ends_word64.map fun w _ => w.toNat_lt_size

/-! ## Integers -/

/-- The high half of a product lies below the factor. -/
theorem high_lt {word range modulus : Nat} (hw : word < modulus) (hr : 0 < range) :
    word * range / modulus < range :=
  Nat.div_lt_of_lt_mul ((Nat.mul_lt_mul_right hr).2 hw)

/-- Where the low half is large enough for a carry, the high half is not yet the last number. -/
theorem high_succ_lt {word range modulus : Nat} (hw : word < modulus) (hr : range ≤ modulus)
    (hlow : modulus - range < word * range % modulus) : word * range / modulus + 1 < range := by
  -- a high half at its last number leaves too little room below the modulus for this low half
  refine Nat.lt_of_not_ge fun hge => ?_
  have hsplit := Nat.div_add_mod (word * range) modulus
  have hupper : modulus * range ≤ modulus * (word * range / modulus) + modulus := by
    rw [← Nat.mul_succ]; exact Nat.mul_le_mul_left _ (by omega)
  have hproduct : word * range + range ≤ modulus * range := by
    rw [← Nat.succ_mul]; exact Nat.mul_le_mul_right _ hw
  omega

theorem ends_below {width : Width} {range : Nat} (hpos : 0 < range) (hr : range ≤ width.modulus) :
    (below width range : Draw σ Nat).Ends (· < range) E := by
  refine (ends_word width).bind fun w hw => ?_
  simp only
  split
  · rename_i hlow
    refine (ends_word width).bind fun v _ => ?_
    split
    · exact ends_pure (high_succ_lt hw hr hlow)
    · exact ends_pure (high_lt hw hpos)
  · exact ends_pure (high_lt hw hpos)

/-- A range that fits its width gives an integer between its ends. -/
theorem ends_integer {width : Width} {low high : Int} (hle : low ≤ high)
    (hfit : high - low + 1 ≤ width.modulus) :
    (integer width low high : Draw σ Int).Ends (fun n => low ≤ n ∧ n ≤ high) E := by
  have hM := width.modulus_pos
  unfold integer
  rw [if_neg (by omega)]
  simp only
  rcases Int.lt_or_eq_of_le hfit with hlt | heq
  · -- the range is smaller than the width
    rw [Int.emod_eq_of_lt (by omega) hlt, if_neg (by omega)]
    refine (ends_below (by omega) (by omega)).map fun offset hoffset => ?_
    omega
  · -- the range takes up the whole width
    rw [heq, Int.emod_self, Int.toNat_zero, if_pos rfl]
    refine (ends_word width).map fun w _ => ?_
    have := Int.emod_nonneg (w - low) (b := width.modulus) (by omega)
    have := Int.emod_lt_of_pos (w - low) (b := width.modulus) (by omega)
    omega

theorem ends_size {low high : Nat} (hle : low ≤ high) (hhigh : high < UInt64.size) :
    (size low high : Draw σ Nat).Ends (fun n => low ≤ n ∧ n ≤ high) E := by
  have := Width.succ_le_modulus_forSize hhigh
  exact (ends_integer (by omega) (by omega)).map fun n hn => by omega

theorem ends_choose? {α : Type} {values : List α} (hne : values ≠ []) (hlen : values.length ≤ UInt64.size) :
    (choose? values : Draw σ (Option α)).Ends (fun a => ∃ v ∈ values, a = some v) E := by
  have hpos : 0 < values.length := List.length_pos_iff.2 hne
  unfold choose?
  rw [if_neg (by simpa using hne)]
  refine (ends_size (Nat.zero_le _) (by omega)).map fun i hi => ?_
  have hi : i < values.length := by omega
  exact ⟨values[i], List.getElem_mem hi, List.getElem?_eq_getElem hi⟩

/-! ## Upper ends -/

/-- A tape on which every word is the largest one. -/
def largestWords (position : Nat) : Tape := ⟨fun _ => 0xffffffff, position⟩

theorem run_word_largest (n : Nat) :
    (word .wide : Draw Tape Nat).run (largestWords n) = (.ok (Width.wide.modulus - 1), largestWords (n + 2)) := by
  have hword : (word64 : Draw Tape UInt64).run (largestWords n) = (.ok 0xffffffffffffffff, largestWords (n + 2)) := by
    show (Except.ok ((0xffffffff : UInt32).toUInt64 ||| ((0xffffffff : UInt32).toUInt64 <<< 32)), _) = _
    rw [show (0xffffffff : UInt32).toUInt64 ||| ((0xffffffff : UInt32).toUInt64 <<< 32) = 0xffffffffffffffff by decide]
    rfl
  unfold word
  rw [run_bind, hword]
  rfl

/-- The largest word gives the last number of a range, without a second word. -/
theorem run_below_largest {range : Nat} (n : Nat) (hpos : 0 < range) (hr : range ≤ Width.wide.modulus) :
    (below .wide range : Draw Tape Nat).run (largestWords n) = (.ok (range - 1), largestWords (n + 2)) := by
  unfold below
  rw [run_bind, run_word_largest]
  generalize Width.wide.modulus = modulus at *
  -- the low half of the product stops just short of asking for a second word
  have hproduct : (modulus - 1) * range = modulus - range + modulus * (range - 1) := by
    rw [Nat.sub_mul, Nat.mul_sub, Nat.one_mul, Nat.mul_one]
    have := Nat.le_mul_of_pos_right modulus hpos
    omega
  have hlt : modulus - range < modulus := by omega
  have hhigh : (modulus - 1) * range / modulus = range - 1 := by
    rw [hproduct, Nat.add_mul_div_left _ _ (by omega), Nat.div_eq_of_lt hlt, Nat.zero_add]
  have hlow : (modulus - 1) * range % modulus = modulus - range := by
    rw [hproduct, Nat.add_mul_mod_self_left, Nat.mod_eq_of_lt hlt]
  simp only
  rw [if_neg (by rw [hlow]; exact Nat.lt_irrefl _), hhigh, run_pure]

/-- The largest words give the upper end of a range. -/
theorem run_integer_largest {low high : Int} (n : Nat) (hle : low ≤ high) (hfit : high - low + 1 < Width.wide.modulus) :
    (integer .wide low high : Draw Tape Int).run (largestWords n) = (.ok high, largestWords (n + 2)) := by
  have hrange : ((high - low + 1) % Width.wide.modulus).toNat = (high - low + 1).toNat := by
    rw [Int.emod_eq_of_lt (by omega) hfit]
  unfold integer
  rw [if_neg (by omega)]
  simp only [hrange]
  rw [if_neg (by omega), run_bind, run_below_largest n (by omega) (by omega)]
  simp only [run_pure]
  rw [show low + ((high - low + 1).toNat - 1 : Nat) = high by omega]

/-! ## Floating-point numbers -/

/-- Between finite bounds that are ordered and not too far apart a floating-point number can be
drawn. -/
theorem ends_roundedFloat {low high : Double} (scale : UInt32) (hlow : low.isFinite = true)
    (hhigh : high.isFinite = true) (hle : low.le high = true) (hwidth : (high.sub low).isFinite = true) :
    (roundedFloat low high scale : Draw σ Double).Ends (fun _ => True) E := by
  have hfloat : (float low high : Draw σ Double).Ends (fun _ => True) E := by
    unfold float
    simp only [hlow, hhigh, hle, hwidth, Bool.not_true, Bool.or_false, Bool.false_eq_true, if_false]
    exact ends_word64.map fun _ _ => trivial
  exact hfloat.map fun _ _ => trivial

theorem ends_fraction : (fraction : Draw σ Double).Ends (fun _ => True) E :=
  ends_word64.map fun _ _ => trivial

theorem ends_coin : (coin : Draw σ Bool).Ends (fun _ => True) E := ends_word64.map fun _ _ => trivial

end Draw

end Fixtures
