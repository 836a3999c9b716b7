/-
The text of a date tells its day: two days with one text are the same day, whatever the sign and
length of their years.
-/
import Fixtures.Calendar.Text
import Fixtures.Proofs.Calendar.Date
import Fixtures.Proofs.Decimal.Digits

namespace Fixtures

/-! ## Padded numbers -/

theorem digitsValue_padded (width n : Nat) : digitsValue (padded width n) = n := by
  rw [padded, digitsValue_append, digitsValue_replicate_zero, Nat.mul_zero, Nat.zero_add, digitsValue_natDigits]

theorem padded_inj {width m n : Nat} (h : padded width m = padded width n) : m = n := by
  rw [← digitsValue_padded width m, h, digitsValue_padded]

theorem isDigit_of_mem_padded {width n : Nat} {c : Char} (h : c ∈ padded width n) : c.isDigit = true := by
  rcases List.mem_append.1 h with h | h
  · rw [(List.mem_replicate.1 h).2]; rfl
  · exact isDigit_of_mem_natDigits h

theorem length_padded {width n : Nat} (hw : 0 < width) (h : n < Nat.pow 10 width) :
    (padded width n).length = width := by
  have : (natDigits n).length ≤ width := (Nat.length_toDigits_le_iff (by decide) hw).2 h
  rw [padded, List.length_append, List.length_replicate]
  omega

/-! ## Dates -/

theorem yearText_cases (y : Int) :
    (y < 0 ∧ yearText y = '-' :: padded 4 y.natAbs) ∨ (9999 < y ∧ yearText y = '+' :: padded 4 y.natAbs) ∨
      (0 ≤ y ∧ yearText y = padded 4 y.natAbs) := by
  unfold yearText
  split
  · exact .inl ⟨by assumption, rfl⟩
  · split
    · exact .inr (.inl ⟨by assumption, rfl⟩)
    · exact .inr (.inr ⟨by omega, rfl⟩)

/-- A sign is not the first digit of a number. -/
theorem cons_ne_padded {c : Char} {cs : List Char} {n : Nat} (hc : c.isDigit = false) : c :: cs ≠ padded 4 n := by
  intro h
  have hdigit := isDigit_of_mem_padded (h ▸ List.mem_cons_self : c ∈ padded 4 n)
  rw [hc] at hdigit
  cases hdigit

/-- The sign of a year is told from its digits, and its digits tell its distance from year 0. -/
theorem yearText_inj {y z : Int} (h : yearText y = yearText z) : y = z := by
  rcases yearText_cases y with ⟨hy, ey⟩ | ⟨hy, ey⟩ | ⟨hy, ey⟩ <;>
    rcases yearText_cases z with ⟨hz, ez⟩ | ⟨hz, ez⟩ | ⟨hz, ez⟩ <;> rw [ey, ez] at h
  · have := padded_inj (List.tail_eq_of_cons_eq h); omega
  · cases List.head_eq_of_cons_eq h
  · exact absurd h (cons_ne_padded rfl)
  · cases List.head_eq_of_cons_eq h
  · have := padded_inj (List.tail_eq_of_cons_eq h); omega
  · exact absurd h (cons_ne_padded rfl)
  · exact absurd h.symm (cons_ne_padded rfl)
  · exact absurd h.symm (cons_ne_padded rfl)
  · have := padded_inj h; omega

theorem Date.text_inj {d e : Date} (h : d.text = e.text) : d = e := by
  -- month and day have two digits, so the text is cut from its end
  have hlen : ∀ n, n < 100 → ('-' :: padded 2 n).length = 3 := fun n hn => by
    rw [List.length_cons, length_padded (by decide) hn]
  have hday (d : Date) := hlen d.day (Nat.lt_of_le_of_lt d.day_le (by decide))
  have hmonth (d : Date) := hlen d.month (Nat.lt_of_le_of_lt d.month_le (by decide))
  obtain ⟨h, hdays⟩ := List.append_inj' h (by rw [hday, hday])
  obtain ⟨hyears, hmonths⟩ := List.append_inj' h (by rw [hmonth, hmonth])
  exact Date.ext_parts (yearText_inj hyears) (padded_inj (List.tail_eq_of_cons_eq hmonths))
    (padded_inj (List.tail_eq_of_cons_eq hdays))

end Fixtures
