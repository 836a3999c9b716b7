/-
Random days and instants from a range of the calendar. A range whose end is not after its start
gives the start, without a draw.
-/
import Fixtures.Random.Uniform
import Fixtures.Calendar.DateTime

namespace Fixtures.Draw

variable {σ : Type} [WordSource σ]

/-- The largest count of microseconds that a range is taken to have. -/
def maxMicros : Int := 9223372036854775807

/-- The whole microseconds from `low` to `high`. A count beyond a signed 64-bit number, in either
direction, gives the largest one. -/
def microsBetween (low high : DateTime) : Int :=
  let micros := (high.sub low).tdiv 1000
  if -maxMicros - 1 ≤ micros ∧ micros ≤ maxMicros then micros else maxMicros

/-- A day from `low` to `high`, both included. -/
def date (low high : Date) : Draw σ Date :=
  let span := high.number - low.number
  if span ≤ 0 then pure low
  else do
    let days ← integer .wide 0 span
    match low.addDays? days with
    | some d => pure d
    | none => throw .beyondCalendar

/-- The instant some nanoseconds after another one. -/
def after (t : DateTime) (nanos : Int) : Draw σ DateTime :=
  match t.add? nanos with
  | some t => pure t
  | none => throw .beyondCalendar

/-- An instant from `low` up to but not including `high`, a whole number of microseconds after
`low`. A range of microseconds that was cut short in the wrong direction may lead out of the
calendar. -/
def dateTime (low high : DateTime) : Draw σ DateTime :=
  let span := microsBetween low high
  if span ≤ 0 then pure low
  else do
    let micros ← integer .wide 0 (span - 1)
    after low (micros * 1000)

/-- An instant from `low` to `high`, a whole number of seconds after `low`. -/
def dateTimeSeconds (low high : DateTime) : Draw σ DateTime :=
  let span := (high.sub low).tdiv 1000000000
  if span ≤ 0 then pure low
  else do
    let seconds ← integer .wide 0 span
    after low (seconds * 1000000000)

end Fixtures.Draw
