/-
The text of dates and instants, `2025-01-31` and `2025-01-31T09:30:00.250`, and the reader of
instants.
-/
import Fixtures.Calendar.DateTime
import Fixtures.Decimal.Numeral
import Fixtures.Text.Blank

namespace Fixtures

/-! ## Writing -/

/-- The digits of a number, with zeros in front up to a width. -/
def padded (width : Nat) (n : Nat) : List Char :=
  let digits := natDigits n
  List.replicate (width - digits.length) '0' ++ digits

/-- A year with at least four digits, and with a sign outside of 0 to 9999. -/
def yearText (year : Int) : List Char :=
  if year < 0 then '-' :: padded 4 year.natAbs
  else if 9999 < year then '+' :: padded 4 year.natAbs
  else padded 4 year.natAbs

/-- The text of a date: year, month and day joined by hyphens. -/
def Date.text (d : Date) : List Char :=
  yearText d.year ++ '-' :: padded 2 d.month ++ '-' :: padded 2 d.day

namespace TimeOfDay

/-- Hour, minute and second joined by colons. -/
def clockText (t : TimeOfDay) : List Char :=
  padded 2 t.hour ++ ':' :: padded 2 t.minute ++ ':' :: padded 2 t.writtenSecond

/-- The fraction of the second with nothing, three, six or nine digits, the least that is exact. -/
def fractionText (t : TimeOfDay) : List Char :=
  let nanos := t.subsecond
  if nanos = 0 then []
  else if nanos % 1000000 = 0 then '.' :: padded 3 (nanos / 1000000)
  else if nanos % 1000 = 0 then '.' :: padded 6 (nanos / 1000)
  else '.' :: padded 9 nanos

end TimeOfDay

namespace DateTime

/-- The text of an instant, with as many digits of the second as it takes. -/
def text (t : DateTime) : List Char :=
  t.date.text ++ 'T' :: t.time.clockText ++ t.time.fractionText

/-- The text of an instant with exactly six digits after the second. -/
def microsText (t : DateTime) : List Char :=
  t.date.text ++ 'T' :: t.time.clockText ++ '.' :: padded 6 (t.time.subsecond / 1000)

/-! ## Reading -/

/-- A number of one to `most` digits at the start of a text, and the rest. -/
def readNumber? (most : Nat) (cs : List Char) : Option (Nat × List Char) :=
  let digits := (cs.take most).takeWhile Char.isDigit
  if digits.isEmpty then none else some (digitsValue digits, cs.drop digits.length)

/-- The same behind white space. -/
def readPart? (most : Nat) (cs : List Char) : Option (Nat × List Char) :=
  readNumber? most (trimLeft cs)

/-- A mark behind white space. -/
def readMark? (mark : Char) (cs : List Char) : Option (List Char) :=
  match trimLeft cs with
  | c :: rest => if c = mark then some rest else none
  | [] => none

/-- A year: up to four digits, or a sign and any number of digits. -/
def readYear? (cs : List Char) : Option (Int × List Char) :=
  match trimLeft cs with
  | '-' :: rest => (readNumber? rest.length rest).map fun (n, rest) => (-(n : Int), rest)
  | '+' :: rest => (readNumber? rest.length rest).map fun (n, rest) => ((n : Int), rest)
  | rest => (readNumber? 4 rest).map fun (n, rest) => ((n : Int), rest)

/-- The nanoseconds of a fraction: digits after the ninth are ignored. No fraction is none. -/
def readFraction? (cs : List Char) : Option (Nat × List Char) :=
  match cs with
  | '.' :: rest =>
    let digits := rest.takeWhile Char.isDigit
    let kept := digits.take 9
    if digits.isEmpty then none
    else some (digitsValue kept * Nat.pow 10 (9 - kept.length), rest.dropWhile Char.isDigit)
  | _ => some (0, cs)

/-- The time of day with an hour, minute, second and fraction; second 60 is a leap second. -/
def clock? (hour minute second nanos : Nat) : Option TimeOfDay :=
  if second = 60 then TimeOfDay.ofHms? hour minute 59 (1000000000 + nanos)
  else TimeOfDay.ofHms? hour minute second nanos

/-- Reads an instant: numbers with white space allowed before each number and each mark, and at
the end. -/
def read? (cs : List Char) : Option DateTime := do
  let (year, cs) ← readYear? cs
  let cs ← readMark? '-' cs
  let (month, cs) ← readPart? 2 cs
  let cs ← readMark? '-' cs
  let (day, cs) ← readPart? 2 cs
  let cs ← readMark? 'T' cs
  let (hour, cs) ← readPart? 2 cs
  let cs ← readMark? ':' cs
  let (minute, cs) ← readPart? 2 cs
  let cs ← readMark? ':' cs
  let (second, cs) ← readPart? 2 cs
  let (nanos, cs) ← readFraction? cs
  if (trimLeft cs).isEmpty then
    let date ← Date.ofYmd? year month day
    let time ← clock? hour minute second nanos
    pure ⟨date, time⟩
  else none

end DateTime

end Fixtures
