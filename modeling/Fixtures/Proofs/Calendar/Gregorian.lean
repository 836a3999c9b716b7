/-
Days by year, month and day of the month, as the proleptic Gregorian calendar counts them: every day has the
next one, over the ends of months and years. The numbered days follow each other in the same way, so the
difference of the numbers of two days is the number of steps from one to the other.
-/
import Mathlib.Data.List.GetD
import Mathlib.Logic.Function.Iterate
import Fixtures.Proofs.Calendar.Date

namespace Fixtures

/-! ## Days by their parts -/

/-- A day by its year, its month from 1 to 12, and its day of the month from 1 on. -/
structure CalendarDay where
  year : Int
  month : Nat
  day : Nat
  deriving DecidableEq

namespace CalendarDay

/-- The number of days in the month of a day. -/
def monthLength (d : CalendarDay) : Nat := (monthLengths d.year).getD (d.month - 1) 0

/-- Whether there is such a day. -/
structure IsValid (d : CalendarDay) : Prop where
  one_le_month : 1 ≤ d.month
  month_le : d.month ≤ 12
  one_le_day : 1 ≤ d.day
  day_le : d.day ≤ d.monthLength

/-- The day after a day: in the same month, or the first one of the next month or year. -/
def next (d : CalendarDay) : CalendarDay :=
  if d.day < d.monthLength then { d with day := d.day + 1 }
  else if d.month < 12 then ⟨d.year, d.month + 1, 1⟩
  else ⟨d.year + 1, 1, 1⟩

/-- The days from the start of year 0, by years, months and days. -/
def number (d : CalendarDay) : Int :=
  daysBeforeYear d.year + (daysOfMonths (monthLengths d.year) (d.month - 1) + (d.day - 1) : Nat)

end CalendarDay

/-! ## Months -/

theorem length_monthLengths (y : Int) : (monthLengths y).length = 12 := rfl

theorem one_le_of_mem_monthLengths {y : Int} {length : Nat} (h : length ∈ monthLengths y) : 1 ≤ length := by
  unfold monthLengths at h
  revert length
  cases isLeapYear y <;> decide

theorem daysOfMonths_succ {lengths : List Nat} {months : Nat} (h : months < lengths.length) :
    daysOfMonths lengths (months + 1) = daysOfMonths lengths months + lengths[months] := by
  induction lengths generalizing months with
  | nil => cases h
  | cons length rest ih =>
    cases months with
    | zero => cases rest <;> simp [daysOfMonths]
    | succ months =>
      have hrest := ih (Nat.lt_of_succ_lt_succ h)
      simp only [daysOfMonths, List.getElem_cons_succ] at hrest ⊢
      omega

theorem daysOfMonths_le : ∀ (lengths : List Nat) (months : Nat),
    daysOfMonths lengths months ≤ daysOfMonths lengths lengths.length
  | [], _ => Nat.le_refl 0
  | _ :: _, 0 => Nat.zero_le _
  | _ :: rest, months + 1 => Nat.add_le_add_left (daysOfMonths_le rest months) _

/-- Whole months and days that fit the month behind them are split again. -/
theorem splitMonths_daysOfMonths {lengths : List Nat} {months left : Nat} (h : months < lengths.length)
    (hleft : left < lengths[months]) : splitMonths lengths (daysOfMonths lengths months + left) = (months, left) := by
  induction lengths generalizing months with
  | nil => cases h
  | cons length rest ih =>
    cases months with
    | zero =>
      have hlt : left < length := hleft
      rw [daysOfMonths, Nat.zero_add, splitMonths, if_pos hlt]
    | succ months =>
      have hrest := ih (Nat.lt_of_succ_lt_succ h) hleft
      rw [daysOfMonths, splitMonths, if_neg (by omega), Nat.add_assoc, Nat.add_sub_cancel_left, hrest]

/-! ## The next day -/

namespace CalendarDay

variable {d e : CalendarDay}

theorem IsValid.lt_length (h : d.IsValid) : d.month - 1 < (monthLengths d.year).length := by
  have := h.one_le_month
  have := h.month_le
  rw [length_monthLengths]
  omega

theorem monthLength_eq (h : d.month - 1 < (monthLengths d.year).length) :
    d.monthLength = (monthLengths d.year)[d.month - 1] := by
  exact List.getD_eq_getElem _ _ h

/-- Every month has a first day. -/
theorem isValid_first {y : Int} {month : Nat} (hmonth : 1 ≤ month) (hle : month ≤ 12) :
    IsValid ⟨y, month, 1⟩ := by
  have hlt : month - 1 < (monthLengths y).length := by
    rw [length_monthLengths]
    omega
  refine ⟨hmonth, hle, Nat.le_refl 1, ?_⟩
  rw [monthLength, List.getD_eq_getElem _ _ hlt]
  exact one_le_of_mem_monthLengths (List.getElem_mem hlt)

theorem IsValid.next (h : d.IsValid) : d.next.IsValid := by
  unfold CalendarDay.next
  split
  · rename_i hday
    exact ⟨h.one_le_month, h.month_le, Nat.succ_pos _, hday⟩
  split
  · rename_i hmonth
    exact isValid_first (Nat.succ_pos _) hmonth
  · exact isValid_first (Nat.le_refl 1) (by decide)

/-- The days of the months up to the end of a month. -/
theorem IsValid.daysOfMonths_month (h : d.IsValid) :
    daysOfMonths (monthLengths d.year) d.month =
      daysOfMonths (monthLengths d.year) (d.month - 1) + d.monthLength := by
  have hsucc := daysOfMonths_succ h.lt_length
  rwa [Nat.sub_add_cancel h.one_le_month, ← monthLength_eq h.lt_length] at hsucc

theorem IsValid.number_next (h : d.IsValid) : d.next.number = d.number + 1 := by
  have hmonth := h.one_le_month
  have hle := h.month_le
  have hday := h.one_le_day
  have hmonths := h.daysOfMonths_month
  unfold CalendarDay.next
  split
  · simp only [number]
    omega
  rename_i hlast
  have heq : d.day = d.monthLength := Nat.le_antisymm h.day_le (Nat.not_lt.1 hlast)
  split
  · simp only [number, Nat.add_sub_cancel]
    omega
  · -- the last day of the year: its months are all the months
    have htwelve : d.month = (monthLengths d.year).length := by
      rw [length_monthLengths]
      omega
    have hyear := daysOfMonths_length (y := d.year) rfl
    rw [← htwelve, hmonths] at hyear
    have hzero : daysOfMonths (monthLengths (d.year + 1)) 0 = 0 := rfl
    simp only [number, daysBeforeYear_succ, Nat.sub_self, hzero]
    cases hleap : isLeapYear d.year <;> simp only [hleap, Bool.false_eq_true, if_false, if_true] at hyear ⊢ <;> omega

theorem isValid_iterate (h : d.IsValid) (n : Nat) : (CalendarDay.next^[n] d).IsValid := by
  induction n with
  | zero => exact h
  | succ n ih =>
    rw [Function.iterate_succ_apply']
    exact ih.next

theorem number_iterate (h : d.IsValid) (n : Nat) : (CalendarDay.next^[n] d).number = d.number + n := by
  induction n with
  | zero => simp
  | succ n ih =>
    rw [Function.iterate_succ_apply', (isValid_iterate h n).number_next, ih]
    omega

/-! ## Numbers of days -/

/-- A year starts no earlier than the year after an earlier one. -/
theorem daysBeforeYear_le_of_lt {y z : Int} (h : y < z) : daysBeforeYear (y + 1) ≤ daysBeforeYear z := by
  unfold daysBeforeYear
  omega

/-- A day of a year is no later than the last one of its months. -/
theorem IsValid.number_lt (h : d.IsValid) : d.number < daysBeforeYear (d.year + 1) := by
  have hday := h.one_le_day
  have hle := h.day_le
  have hmonths := h.daysOfMonths_month
  have hall := daysOfMonths_le (monthLengths d.year) d.month
  rw [daysOfMonths_length rfl] at hall
  rw [daysBeforeYear_succ, number]
  split at hall <;> rename_i hleap <;> simp only [hleap, Bool.false_eq_true, if_false, if_true] <;> omega

/-- The year, month and day of the month are told by the number of the day. -/
theorem IsValid.ext_number (hd : d.IsValid) (he : e.IsValid) (h : d.number = e.number) : d = e := by
  have hyear : d.year = e.year := by
    have hdlt := hd.number_lt
    have helt := he.number_lt
    rcases Int.lt_trichotomy d.year e.year with hlt | heq | hlt
    · have := daysBeforeYear_le_of_lt hlt
      unfold number at *
      omega
    · exact heq
    · have := daysBeforeYear_le_of_lt hlt
      unfold number at *
      omega
  have hparts (c : CalendarDay) (hc : c.IsValid) :
      splitMonths (monthLengths c.year) (daysOfMonths (monthLengths c.year) (c.month - 1) + (c.day - 1)) =
        (c.month - 1, c.day - 1) := by
    have := hc.one_le_day
    have := hc.day_le
    exact splitMonths_daysOfMonths hc.lt_length (by rw [← monthLength_eq hc.lt_length]; omega)
  have hsum : daysOfMonths (monthLengths d.year) (d.month - 1) + (d.day - 1) =
      daysOfMonths (monthLengths e.year) (e.month - 1) + (e.day - 1) := by
    unfold number at h
    rw [hyear] at h ⊢
    omega
  have hsplit := hparts d hd
  rw [hsum, hyear, hparts e he, Prod.mk.injEq] at hsplit
  have := hd.one_le_month
  have := he.one_le_month
  have := hd.one_le_day
  have := he.one_le_day
  cases d
  cases e
  simp only [mk.injEq] at *
  omega

end CalendarDay

/-! ## Numbered days -/

namespace Date

/-- The year, month and day of the month of a day. -/
def parts (d : Date) : CalendarDay := ⟨d.year, d.month, d.day⟩

theorem isValid_parts (d : Date) : d.parts.IsValid := by
  obtain ⟨-, hmonth, hday⟩ := splitMonths_spec _ _ d.dayOfYear_lt
  refine ⟨Nat.succ_pos _, d.month_le, Nat.succ_pos _, ?_⟩
  have hlt : d.parts.month - 1 < (monthLengths d.parts.year).length := hmonth
  rw [CalendarDay.monthLength, List.getD_eq_getElem _ _ hlt]
  exact hday

theorem number_parts (d : Date) : d.parts.number = d.number := d.number_eq.symm

/-- A day is as many steps behind another one as its number is greater. -/
theorem iterate_next_parts {d e : Date} {n : Nat} :
    CalendarDay.next^[n] d.parts = e.parts ↔ e.number = d.number + n := by
  have hnumber := CalendarDay.number_iterate d.isValid_parts n
  constructor
  · intro h
    rwa [h, number_parts, number_parts] at hnumber
  · intro h
    refine (CalendarDay.isValid_iterate d.isValid_parts n).ext_number e.isValid_parts ?_
    rw [hnumber, number_parts, number_parts, h]

/-- The first day of the calendar is the first one of its year. -/
theorem parts_first : first.parts = ⟨-262143, 1, 1⟩ := by decide +kernel

end Date

end Fixtures
