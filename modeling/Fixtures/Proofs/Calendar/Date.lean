/-
Year, month and day of the numbered days. The year of a day is the one year whose days include it,
the month and day split the days of this year, and a day is determined by the three.
-/
import Fixtures.Calendar.Date

namespace Fixtures

/-! ## Years -/

theorem daysBeforeYear_succ (y : Int) :
    daysBeforeYear (y + 1) = daysBeforeYear y + if isLeapYear y then 366 else 365 := by
  unfold daysBeforeYear isLeapYear
  simp only [Bool.and_eq_true, Bool.or_eq_true, beq_iff_eq, bne_iff_ne, ne_eq]
  split <;> omega

theorem daysBeforeYear_yearOfDay (n : Int) :
    daysBeforeYear (yearOfDay n) ≤ n ∧ n < daysBeforeYear (yearOfDay n + 1) := by
  -- the guess is off by less than a year from the day's place in 400 years
  have hlow := Int.mul_ediv_self_le (x := 400 * n) (k := 146097) (by decide)
  have hhigh := Int.lt_mul_ediv_self_add (x := 400 * n) (k := 146097) (by decide)
  unfold yearOfDay
  generalize 400 * n / 146097 = guess at *
  simp only
  split
  · rename_i hlt
    rw [Int.sub_add_cancel]
    refine ⟨?_, hlt⟩
    unfold daysBeforeYear
    omega
  · rename_i hge
    split
    · rename_i hle
      refine ⟨hle, ?_⟩
      unfold daysBeforeYear
      omega
    · omega

/-! ## Months -/

theorem daysOfMonths_length {y : Int} {lengths : List Nat} (h : lengths = monthLengths y) :
    daysOfMonths lengths lengths.length = if isLeapYear y then 366 else 365 := by
  subst h
  unfold monthLengths
  cases isLeapYear y <;> rfl

/-- The months and the days left make up the days that were split, and the days left fit the month. -/
theorem splitMonths_spec : ∀ (lengths : List Nat) (days : Nat), days < daysOfMonths lengths lengths.length →
    daysOfMonths lengths (splitMonths lengths days).1 + (splitMonths lengths days).2 = days ∧
      ∃ h : (splitMonths lengths days).1 < lengths.length,
        (splitMonths lengths days).2 < lengths[(splitMonths lengths days).1]
  | [], days, h => by cases h
  | length :: rest, days, h => by
    rw [splitMonths]
    split
    · rename_i hlt
      exact ⟨by rw [daysOfMonths, Nat.zero_add], Nat.succ_pos _, hlt⟩
    · rename_i hge
      -- a whole month is taken off, and the rest is split over the months behind it
      rw [List.length_cons, daysOfMonths] at h
      obtain ⟨hsum, hmonth, hleft⟩ := splitMonths_spec rest (days - length) (by omega)
      exact ⟨by simp only [daysOfMonths]; omega, Nat.succ_lt_succ hmonth, hleft⟩

theorem le_of_mem_monthLengths {y : Int} {length : Nat} (h : length ∈ monthLengths y) : length ≤ 31 := by
  unfold monthLengths at h
  revert length
  cases isLeapYear y <;> decide

/-! ## Dates -/

namespace Date

theorem daysBeforeYear_le (d : Date) : daysBeforeYear d.year ≤ d.number := (daysBeforeYear_yearOfDay d.number).1

theorem number_eq_year (d : Date) : d.number = daysBeforeYear d.year + d.dayOfYear := by
  have := d.daysBeforeYear_le
  unfold dayOfYear
  omega

theorem dayOfYear_lt (d : Date) :
    d.dayOfYear < daysOfMonths (monthLengths d.year) (monthLengths d.year).length := by
  have hlt : d.number < daysBeforeYear (d.year + 1) := (daysBeforeYear_yearOfDay d.number).2
  rw [daysBeforeYear_succ, d.number_eq_year] at hlt
  rw [daysOfMonths_length rfl]
  split at hlt
  · rename_i hleap
    rw [if_pos hleap]
    omega
  · rename_i hleap
    rw [if_neg hleap]
    omega

/-- A day is found by its year, month and day of the month. -/
theorem number_eq (d : Date) :
    d.number = daysBeforeYear d.year + (daysOfMonths (monthLengths d.year) (d.month - 1) + (d.day - 1) : Nat) := by
  rw [d.number_eq_year, ← (splitMonths_spec _ _ d.dayOfYear_lt).1]
  rfl

theorem month_le (d : Date) : d.month ≤ 12 := (splitMonths_spec _ _ d.dayOfYear_lt).2.1

theorem day_le (d : Date) : d.day ≤ 31 := by
  obtain ⟨_, hlt⟩ := (splitMonths_spec _ _ d.dayOfYear_lt).2
  exact Nat.le_trans hlt (le_of_mem_monthLengths (List.getElem_mem _))

theorem ext_number {d e : Date} (h : d.number = e.number) : d = e := by
  cases d; cases e; cases h; rfl

/-- A day is determined by its year, month and day of the month. -/
theorem ext_parts {d e : Date} (hyear : d.year = e.year) (hmonth : d.month = e.month) (hday : d.day = e.day) :
    d = e := by
  apply ext_number
  rw [d.number_eq, e.number_eq, hyear, hmonth, hday]

theorem ofNumber?_eq_some {n : Int} {d : Date} : ofNumber? n = some d ↔ d.number = n := by
  unfold ofNumber?
  constructor
  · intro h
    split at h
    · cases h; rfl
    · cases h
  · rintro rfl
    rw [dif_pos ⟨d.first_le, d.lt_end⟩]

theorem ofNumber?_eq_none {n : Int} :
    ofNumber? n = none ↔ n < daysBeforeYear (-262143) ∨ daysBeforeYear 262143 ≤ n := by
  unfold ofNumber?
  split <;> simp <;> omega

end Date

end Fixtures
