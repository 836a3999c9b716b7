/-
Instants of the calendar: a day and a time of day with nanoseconds, where a second may be followed by
a leap second. Durations are whole nanoseconds, of which a second has 1000000000 and a day
86400000000000.
-/
import Fixtures.Calendar.Date

namespace Fixtures

/-! ## Times of day -/

/-- A time of day. An instant within a leap second belongs to the second before it, with `nano` from
one to two thousand million. In clocks only the last second of a minute has a leap second behind it,
but the nanoseconds of any time can be set so. -/
@[ext]
structure TimeOfDay where
  second : Nat
  nano : Nat
  second_lt : second < 86400
  nano_lt : nano < 2000000000
  deriving DecidableEq

namespace TimeOfDay

def isLeap (t : TimeOfDay) : Bool := 1000000000 ≤ t.nano

def midnight : TimeOfDay := ⟨0, 0, by decide, by decide⟩

/-- The last nanosecond of a day without leap second. -/
def lastNano : TimeOfDay := ⟨86399, 999999999, by decide, by decide⟩

instance : Inhabited TimeOfDay := ⟨midnight⟩

/-- The time with an hour, minute, second and nanosecond, if there is one on a clock. -/
def ofHms? (hour minute second nano : Nat) : Option TimeOfDay :=
  if h : (3600 * hour + 60 * minute + second < 86400 ∧ nano < 2000000000) ∧
      minute < 60 ∧ second < 60 ∧ (1000000000 ≤ nano → second = 59) then
    some ⟨3600 * hour + 60 * minute + second, nano, h.1.1, h.1.2⟩
  else none

def hour (t : TimeOfDay) : Nat := t.second / 3600

def minute (t : TimeOfDay) : Nat := t.second / 60 % 60

/-- The second of the minute as it is written: 60 within a leap second. -/
def writtenSecond (t : TimeOfDay) : Nat := t.second % 60 + t.nano / 1000000000

/-- The nanoseconds within the written second. -/
def subsecond (t : TimeOfDay) : Nat := t.nano % 1000000000

/-- The ordinary time some nanoseconds after midnight, with the days to carry. -/
def ofNanos (nanos : Int) : Int × TimeOfDay :=
  let rest := (nanos % 86400000000000).toNat
  (nanos / 86400000000000,
    ⟨rest / 1000000000, rest % 1000000000,
      by have : rest < 86400000000000 := by
          have := Int.emod_lt_of_pos nanos (show (0 : Int) < 86400000000000 by decide)
          have := Int.emod_nonneg nanos (show (86400000000000 : Int) ≠ 0 by decide)
          omega
         omega,
      by omega⟩)

/-- Moves a time by a duration; gives the days to carry and the new time. A move of less than a
second may stay within a leap second. Moving off a leap second lands on ordinary time, forward
counted from the second before it and backward from its end. -/
def add (t : TimeOfDay) (delta : Int) : Int × TimeOfDay :=
  if h : 1000000000 ≤ t.nano ∧ -1000000000 < delta ∧ delta < 1000000000 ∧
      t.nano + delta < 2000000000 then
    (0, { t with
      nano := (t.nano + delta).toNat
      nano_lt := by omega })
  else if t.isLeap && 0 < delta then
    ofNanos (t.second * 1000000000 + t.nano - 1000000000 + delta)
  else ofNanos (t.second * 1000000000 + t.nano + delta)

/-- The duration from `s` to `t` on one day; a leap second between them counts. -/
def sub (t s : TimeOfDay) : Int :=
  let seconds : Int := (t.second : Int) - s.second
  let seconds :=
    if s.second < t.second && s.isLeap then seconds + 1
    else if t.second < s.second && t.isLeap then seconds - 1
    else seconds
  seconds * 1000000000 + ((t.nano : Int) - s.nano)

end TimeOfDay

/-! ## Instants -/

/-- An instant: a day and a time of day. -/
structure DateTime where
  date : Date
  time : TimeOfDay
  deriving DecidableEq, Inhabited

namespace DateTime

/-- The first instant of the calendar. -/
def first : DateTime := ⟨.first, .midnight⟩

/-- The last instant of the calendar outside leap seconds. -/
def last : DateTime := ⟨.last, .lastNano⟩

/-- The start of a day. -/
def startOf (d : Date) : DateTime := ⟨d, .midnight⟩

/-- Whether the instant lies within a leap second. -/
def isLeap (t : DateTime) : Bool := t.time.isLeap

/-- The instant a duration later, if it lies within the calendar. -/
def add? (t : DateTime) (delta : Int) : Option DateTime :=
  let (days, time) := t.time.add delta
  (t.date.addDays? days).map fun date => ⟨date, time⟩

/-- The duration from `s` to `t`. -/
def sub (t s : DateTime) : Int :=
  (t.date.number - s.date.number) * 86400000000000 + t.time.sub s.time

end DateTime

end Fixtures
