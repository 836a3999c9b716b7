/-
Decimal digits: the digits of a number spell it, are as many as its size says, and do not start with a zero
unless the number is zero.
-/
import Fixtures.Decimal.Numeral
import Mathlib.Algebra.Group.Nat.Defs

namespace Fixtures

variable {n : Nat} {c : Char}

@[simp] theorem digitsValue_natDigits (n : Nat) : digitsValue (natDigits n) = n :=
  Nat.ofDigitChars_ten_toDigits

theorem digitsValue_append (ds es : List Char) :
    digitsValue (ds ++ es) = 10 ^ es.length * digitsValue ds + digitsValue es := by
  show Nat.ofDigitChars 10 (ds ++ es) 0 = 10 ^ es.length * Nat.ofDigitChars 10 ds 0 + Nat.ofDigitChars 10 es 0
  rw [Nat.ofDigitChars_append, Nat.ofDigitChars_eq_ofDigitChars_zero]

@[simp] theorem digitsValue_replicate_zero (k : Nat) : digitsValue (List.replicate k '0') = 0 := by
  show Nat.ofDigitChars 10 (List.replicate k '0') 0 = 0
  rw [Nat.ofDigitChars_replicate_zero, Nat.mul_zero]

theorem natDigits_ne_nil : natDigits n ≠ [] := Nat.toDigits_ne_nil

theorem length_natDigits_pos (n : Nat) : 0 < (natDigits n).length := Nat.length_toDigits_pos

theorem isDigit_of_mem_natDigits (h : c ∈ natDigits n) : c.isDigit = true :=
  Nat.isDigit_of_mem_toDigits (by decide) (by decide) h

/-- There is a first digit. -/
theorem exists_natDigits_eq_cons (n : Nat) :
    ∃ d ds, natDigits n = d :: ds ∧ ∀ c ∈ d :: ds, c.isDigit = true := by
  obtain ⟨d, ds, h⟩ := List.exists_cons_of_ne_nil (natDigits_ne_nil (n := n))
  exact ⟨d, ds, h, fun c hc => isDigit_of_mem_natDigits (h ▸ hc)⟩

theorem lt_ten_pow_length_natDigits (n : Nat) : n < 10 ^ (natDigits n).length :=
  (Nat.length_toDigits_le_iff (by decide) (length_natDigits_pos n)).1 (Nat.le_refl _)

theorem ten_pow_length_natDigits_le (hn : n ≠ 0) : 10 ^ ((natDigits n).length - 1) ≤ n := by
  have hpos := length_natDigits_pos n
  rcases Nat.eq_zero_or_pos ((natDigits n).length - 1) with hone | hmore
  · rw [hone]
    exact Nat.pos_of_ne_zero hn
  · refine Nat.le_of_not_lt fun hlt => ?_
    have hle : (natDigits n).length ≤ (natDigits n).length - 1 :=
      (Nat.length_toDigits_le_iff (by decide) hmore).2 hlt
    omega

theorem head?_natDigits_ne_zero (hn : n ≠ 0) : (natDigits n).head? ≠ some '0' := by
  have hdigit : ∀ d < 10, d ≠ 0 → [d.digitChar].head? ≠ some '0' := by decide
  induction n using Nat.strongRecOn with
  | ind n ih =>
    rcases Nat.lt_or_ge n 10 with hlt | hge
    · rw [natDigits, Nat.toDigits_of_lt_base hlt]
      exact hdigit n hlt hn
    · have hrest := ih (n / 10) (by omega) (by omega)
      rw [natDigits, Nat.toDigits_of_base_le (by decide) hge]
      cases hfirst : Nat.toDigits 10 (n / 10) with
      | nil => exact absurd hfirst Nat.toDigits_ne_nil
      | cons c cs =>
        rw [natDigits, hfirst] at hrest
        exact hrest

end Fixtures
