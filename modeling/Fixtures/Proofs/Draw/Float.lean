/-
Drawn floating-point numbers. The bits of a word give a part of the whole that is never the whole itself. A draw goes
that part of the way from one end of its range to the other, and every part that a word gives is reached.
-/
import Fixtures.Proofs.Double.Range
import Fixtures.Proofs.Double.Scale
import Fixtures.Proofs.Draw.Reach

namespace Fixtures

namespace Double

/-! ## Parts from words -/

/-- The number from 1 to 2 whose significand holds the high bits of a word. -/
def upToTwo (w : UInt64) : Double := ⟨(0x3ff0000000000000 : UInt64) ||| (w >>> 12)⟩

/-- The part of the whole that a word gives. -/
def ofWord (w : UInt64) : Double := (upToTwo w).sub (ofNat 1)

/-- The largest part that a word gives. -/
def lastPart : Double := ofWord 0xffffffffffffffff

theorem toNat_upToTwo (w : UInt64) : (upToTwo w).bits.toNat = 2 ^ 52 * 0x3ff + w.toNat / 2 ^ 12 := by
  have hlt : w.toNat / 2 ^ 12 < 2 ^ 52 := by
    have := w.toNat_lt
    omega
  rw [Nat.two_pow_add_eq_or_of_lt hlt, upToTwo, UInt64.toNat_or, UInt64.toNat_shiftRight, Nat.shiftRight_eq_div_pow]
  rfl

theorem place_upToTwo (w : UInt64) : (upToTwo w).place = (2 ^ 52 * 0x3ff + w.toNat / 2 ^ 12 : Nat) := by
  have hlt := w.toNat_lt
  have hneg : (upToTwo w).negative = false := by
    rw [Bool.eq_false_iff, Ne, negative_iff, toNat_upToTwo]
    omega
  rw [place, hneg, if_neg Bool.false_ne_true, magnitude_eq, toNat_upToTwo]
  omega

theorem isFinite_upToTwo (w : UInt64) : (upToTwo w).isFinite = true := by
  have hlt := w.toNat_lt
  rw [isFinite_iff, place_upToTwo, infinityMagnitude]
  omega

theorem place_one : (ofNat 1).place = (2 ^ 52 * 0x3ff : Nat) := by decide +kernel

theorem isFinite_one : (ofNat 1).isFinite = true := by decide +kernel

theorem value_lastPart : lastPart.value = 1 - 2 ^ (-52 : Int) := by
  have hnegative : lastPart.negative = false := by decide +kernel
  have hsignificand : lastPart.significand = 2 * unitSignificand - 2 := by decide +kernel
  have hexponent : lastPart.exponent = -53 := by decide +kernel
  rw [value_of_nonneg hnegative, hsignificand, hexponent]
  norm_num [unitSignificand]

theorem place_ofWord (w : UInt64) : (ofWord w).place = nearestPlace ((upToTwo w).value - 1) := by
  rw [ofWord, place_sub (isFinite_upToTwo w) isFinite_one, value_one]

theorem isPart_ofWord (w : UInt64) : IsPart (ofWord w) := by
  have hlt := w.toNat_lt
  have hone : 1 ≤ (upToTwo w).value := by
    rw [← value_one, ← place_le_iff isFinite_one (isFinite_upToTwo w), place_one, place_upToTwo]
    omega
  have hlast : (upToTwo w).value ≤ (upToTwo 0xffffffffffffffff).value := by
    have htoNat : (0xffffffffffffffff : UInt64).toNat = 2 ^ 64 - 1 := rfl
    rw [← place_le_iff (isFinite_upToTwo w) (isFinite_upToTwo _), place_upToTwo, place_upToTwo, htoNat]
    omega
  have hnonneg : 0 ≤ (ofWord w).place := by
    rw [place_ofWord, ← nearestPlace_zero]
    exact nearestPlace_mono (by linarith)
  have hle : (ofWord w).place ≤ lastPart.place := by
    rw [lastPart, place_ofWord, place_ofWord]
    exact nearestPlace_mono (by linarith)
  have hlastFinite : lastPart.isFinite = true := by decide +kernel
  have hfinite : (ofWord w).isFinite = true := by
    rw [isFinite_iff] at hlastFinite ⊢
    omega
  refine ⟨hfinite, value_nonneg hnonneg, ?_⟩
  rw [← value_lastPart]
  exact (place_le_iff hfinite hlastFinite).1 hle

theorem value_ofWord_zero : (ofWord 0).value = 0 := value_of_isZero (by decide +kernel)

end Double

namespace Draw

variable {σ : Type} [WordSource σ] {low high : Double} {scale : UInt32} {E : DrawError → Prop}

/-! ## Draws -/

theorem float_eq (h : Double.IsRange low high) :
    (float low high : Draw σ Double) = word64 >>= fun w => pure (Double.partWay low high (.ofWord w)) := by
  have hle : low.le high = true := (Double.le_iff h.low_finite h.high_finite).2 h.le
  unfold float
  simp only [h.low_finite, h.high_finite, h.width_finite, hle, Bool.not_true, Bool.or_false, Bool.false_eq_true,
    if_false]
  rfl

theorem ends_partWay (h : Double.IsRange low high) :
    (roundedFloat low high scale : Draw σ Double).Ends
      (fun x => ∃ w, x = (Double.partWay low high (.ofWord w)).roundTo scale) E := by
  have hfloat : (float low high : Draw σ Double).Ends (fun x => ∃ w, x = Double.partWay low high (.ofWord w)) E := by
    rw [float_eq h]
    exact ends_word64.map fun w _ => ⟨w, rfl⟩
  refine hfloat.map fun x hx => ?_
  obtain ⟨w, rfl⟩ := hx
  exact ⟨w, rfl⟩

theorem reaches_roundedFloat (h : Double.IsRange low high) (w : UInt64) :
    (roundedFloat low high scale : Draw σ Double).Reaches ((Double.partWay low high (.ofWord w)).roundTo scale) := by
  unfold roundedFloat
  rw [float_eq h]
  exact ((reaches_word64 w).map rfl).map rfl

end Draw

end Fixtures
