/-
Days of the proleptic Gregorian calendar as numbers, between the first day of year -262143 and the
last day of year 262142. Year 0 exists, and day 0 is its first day.
-/

namespace Fixtures

/-! ## Years and months -/

def isLeapYear (year : Int) : Bool := year % 4 == 0 && (year % 100 != 0 || year % 400 == 0)

/-- The number of days from the start of year 0 to the start of a year: 365 a year, and one for each
leap year between. -/
def daysBeforeYear (year : Int) : Int :=
  365 * year + (year + 3) / 4 - (year + 99) / 100 + (year + 399) / 400

/-- The lengths of the months of a year, from January on. -/
def monthLengths (year : Int) : List Nat :=
  [31, if isLeapYear year then 29 else 28, 31, 30, 31, 30, 31, 31, 30, 31, 30, 31]

/-- The year in which a day lies: 400 years have 146097 days, and the estimate from this is off by at
most one. -/
def yearOfDay (day : Int) : Int :=
  let guess := 400 * day / 146097
  if day < daysBeforeYear guess then guess - 1
  else if daysBeforeYear (guess + 1) ≤ day then guess + 1
  else guess

/-- The number of days of the first months of a list of month lengths. -/
def daysOfMonths : (lengths : List Nat) → (months : Nat) → Nat
  | [], _ => 0
  | _ :: _, 0 => 0
  | length :: rest, months + 1 => length + daysOfMonths rest months

/-- Splits the days since the start of a list of months into whole months and the days left. -/
def splitMonths : (lengths : List Nat) → (days : Nat) → Nat × Nat
  | [], days => (0, days)
  | length :: rest, days =>
    if days < length then (0, days)
    else
      let (months, left) := splitMonths rest (days - length)
      (months + 1, left)

/-! ## Dates -/

/-- A day of the calendar, by its number. -/
structure Date where
  number : Int
  first_le : daysBeforeYear (-262143) ≤ number
  lt_end : number < daysBeforeYear 262143
  deriving DecidableEq

namespace Date

/-- The day with a number, if it lies within the calendar. -/
def ofNumber? (number : Int) : Option Date :=
  if h : daysBeforeYear (-262143) ≤ number ∧ number < daysBeforeYear 262143 then
    some ⟨number, h.1, h.2⟩
  else none

/-- The first day of the calendar. -/
def first : Date := ⟨daysBeforeYear (-262143), by decide, by decide⟩

/-- The last day of the calendar. -/
def last : Date := ⟨daysBeforeYear 262143 - 1, by decide, by decide⟩

/-- The first day of 1970. -/
def epoch : Date := ⟨daysBeforeYear 1970, by decide, by decide⟩

instance : Inhabited Date := ⟨epoch⟩

/-- The day with a year, month and day of the month, if there is one. -/
def ofYmd? (year : Int) (month day : Nat) : Option Date :=
  let lengths := monthLengths year
  if 1 ≤ month ∧ month ≤ 12 ∧ 1 ≤ day ∧ day ≤ lengths.getD (month - 1) 0 then
    ofNumber? (daysBeforeYear year + (daysOfMonths lengths (month - 1) + (day - 1) : Nat))
  else none

def year (d : Date) : Int := yearOfDay d.number

/-- The days since the start of the year. -/
def dayOfYear (d : Date) : Nat := (d.number - daysBeforeYear d.year).toNat

/-- The month, from 1 to 12. -/
def month (d : Date) : Nat := (splitMonths (monthLengths d.year) d.dayOfYear).1 + 1

/-- The day of the month, from 1 on. -/
def day (d : Date) : Nat := (splitMonths (monthLengths d.year) d.dayOfYear).2 + 1

/-- The day some days later, if it lies within the calendar. -/
def addDays? (d : Date) (days : Int) : Option Date := ofNumber? (d.number + days)

end Date

end Fixtures
