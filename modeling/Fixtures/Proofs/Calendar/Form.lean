/-
The form of the texts of days and instants: numbers of a fixed count of digits, with marks between them. A day
of the years 0 to 9999 is written in ten characters, and an instant outside leap seconds with six digits behind
its second.
-/
import Fixtures.Proofs.Calendar.Gregorian
import Fixtures.Proofs.Calendar.Instant
import Fixtures.Proofs.Calendar.Text

namespace Fixtures

/-! ## Numbers -/

/-- A count of decimal digits that spell a number. -/
structure Spells (width n : Nat) (digits : List Char) : Prop where
  length : digits.length = width
  isDigit : ∀ c ∈ digits, c.isDigit = true
  value : digitsValue digits = n

theorem spells_padded {width n : Nat} (hwidth : 0 < width) (h : n < Nat.pow 10 width) :
    Spells width n (padded width n) :=
  ⟨length_padded hwidth h, fun _ hc => isDigit_of_mem_padded hc, digitsValue_padded width n⟩

/-! ## Days -/

/-- A day of a year that is not negative: the year in four digits, and the month and the day of the month in two
digits each, joined by hyphens. -/
def CalendarDay.Written (d : CalendarDay) (text : List Char) : Prop :=
  ∃ (n : Nat) (year month day : List Char), text = year ++ '-' :: month ++ '-' :: day ∧
    d.year = n ∧ Spells 4 n year ∧ Spells 2 d.month month ∧ Spells 2 d.day day

namespace Date

/-- The year of a day, by the number of the day. -/
theorem le_year_iff {d : Date} {y : Int} : y ≤ d.year ↔ daysBeforeYear y ≤ d.number := by
  constructor
  · intro h
    have hmono : daysBeforeYear y ≤ daysBeforeYear d.year := by
      unfold daysBeforeYear
      omega
    exact Int.le_trans hmono d.daysBeforeYear_le
  · intro h
    refine Int.not_lt.1 fun hlt => ?_
    have hnext := CalendarDay.daysBeforeYear_le_of_lt hlt
    have hend : d.number < daysBeforeYear (d.year + 1) := (daysBeforeYear_yearOfDay d.number).2
    omega

theorem written_text {d : Date} (hfrom : 0 ≤ d.year) (hto : d.year ≤ 9999) : d.parts.Written d.text := by
  have hyear : yearText d.year = padded 4 d.year.natAbs := by
    rw [yearText, if_neg (by omega), if_neg (by omega)]
  have hmonth := d.month_le
  have hday := d.day_le
  refine ⟨d.year.natAbs, padded 4 d.year.natAbs, padded 2 d.month, padded 2 d.day, ?_, ?_, ?_, ?_, ?_⟩
  · rw [text, hyear]
  · exact (Int.natAbs_of_nonneg hfrom).symm
  · exact spells_padded (by decide) (show _ < 10000 by omega)
  · exact spells_padded (by decide) (show d.month < 100 by omega)
  · exact spells_padded (by decide) (show d.day < 100 by omega)

end Date

/-! ## Instants -/

/-- A time of day outside leap seconds, to the microsecond. -/
structure ClockTime where
  hour : Fin 24
  minute : Fin 60
  second : Fin 60
  micros : Fin 1000000

/-- Hour, minute and second in two digits each, joined by colons, and behind a point the microseconds in six. -/
def ClockTime.Written (t : ClockTime) (text : List Char) : Prop :=
  ∃ hour minute second micros : List Char, text = hour ++ ':' :: minute ++ ':' :: second ++ '.' :: micros ∧
    Spells 2 t.hour hour ∧ Spells 2 t.minute minute ∧ Spells 2 t.second second ∧ Spells 6 t.micros micros

/-- A day and a time of day with a `T` between them. -/
def WrittenAt (d : CalendarDay) (t : ClockTime) (text : List Char) : Prop :=
  ∃ day time : List Char, text = day ++ 'T' :: time ∧ d.Written day ∧ t.Written time

/-- The whole microseconds of a time of day, with a leap second as the second before it. -/
def TimeOfDay.clock (t : TimeOfDay) : ClockTime where
  hour := ⟨t.hour, by have := t.second_lt; unfold TimeOfDay.hour; omega⟩
  minute := ⟨t.minute, Nat.mod_lt _ (by decide)⟩
  second := ⟨t.second % 60, Nat.mod_lt _ (by decide)⟩
  micros := ⟨t.subsecond / 1000, by unfold TimeOfDay.subsecond; omega⟩

theorem DateTime.writtenAt_microsText {t : DateTime} (hleap : t.isLeap = false) (hfrom : 0 ≤ t.date.year)
    (hto : t.date.year ≤ 9999) : WrittenAt t.date.parts t.time.clock t.microsText := by
  have hsecond : t.time.writtenSecond = t.time.second % 60 := by
    have hnano := TimeOfDay.isLeap_eq_false.1 hleap
    unfold TimeOfDay.writtenSecond
    omega
  have htwo {n : Nat} (h : n ≤ 100) (i : Fin n) : Spells 2 i (padded 2 i) :=
    spells_padded (by decide) (Nat.lt_of_lt_of_le i.isLt h)
  have hsix (i : Fin 1000000) : Spells 6 i (padded 6 i) := spells_padded (by decide) i.isLt
  refine ⟨t.date.text, t.time.clockText ++ '.' :: padded 6 (t.time.subsecond / 1000), ?_,
    Date.written_text hfrom hto, ?_⟩
  · rw [microsText, List.append_assoc, List.cons_append]
  · refine ⟨_, _, _, _, ?_, htwo (by decide) _, htwo (by decide) _, htwo (by decide) _, hsix _⟩
    rw [TimeOfDay.clockText, hsecond]
    rfl

end Fixtures
