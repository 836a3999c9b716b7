/-
Decimal numerals: the number literals of JSON as sign, digits and exponent, with their text and
two readings as floating-point numbers, the nearest one and the one by scaling in steps.
-/
import Fixtures.Double.Arithmetic

namespace Fixtures

/-- A decimal numeral: `-` if negative, the digits before the point, those after it (none if there
is no point), and the exponent if one is written. -/
structure Numeral where
  negative : Bool
  whole : List Char
  fraction : List Char
  exponent : Option Int
  deriving DecidableEq, Inhabited

/-- The value of a decimal digit. -/
def digitValue (c : Char) : Nat := c.toNat - '0'.toNat

/-- The number that a list of decimal digits spells. -/
def digitsValue (digits : List Char) : Nat :=
  digits.foldl (fun n c => 10 * n + digitValue c) 0

/-- The decimal digits of a natural number. -/
def natDigits (n : Nat) : List Char := Nat.toDigits 10 n

/-- The decimal text of an integer. -/
def intDigits (n : Int) : List Char :=
  if n < 0 then '-' :: natDigits n.natAbs else natDigits n.natAbs

namespace Numeral

/-! ## Text -/

/-- The text of an exponent; `plus` writes the sign of a positive one too. -/
def exponentText (plus : Bool) (e : Int) : List Char :=
  'e' :: if e < 0 then '-' :: natDigits e.natAbs
    else if plus then '+' :: natDigits e.natAbs else natDigits e.natAbs

/-- The text of a numeral. -/
def text (plus : Bool) (n : Numeral) : List Char :=
  (if n.negative then ['-'] else []) ++ n.whole ++
    (if n.fraction.isEmpty then [] else '.' :: n.fraction) ++
    (n.exponent.map (exponentText plus)).getD []

/-- The numeral of an integer. -/
def ofInt (n : Int) : Numeral := ⟨n < 0, natDigits n.natAbs, [], none⟩

/-! ## Reading as an integer -/

/-- A numeral without point and exponent is written as an integer. -/
def isInteger (n : Numeral) : Bool := n.fraction.isEmpty && n.exponent.isNone

/-- The integer that a numeral without point and exponent spells. -/
def toInt (n : Numeral) : Int :=
  if n.negative then -(digitsValue n.whole : Int) else digitsValue n.whole

/-! ## The nearest floating-point number -/

/-- The power of ten of the last digit. -/
def lastPower (n : Numeral) : Int := n.exponent.getD 0 - n.fraction.length

/-- The floating-point number nearest to a numeral. From a first digit at `10 ^ 309` up the result
is infinite and below `10 ^ -324` it is zero, so huge powers are never computed. -/
def nearest (n : Numeral) : Double :=
  let digits := digitsValue (n.whole ++ n.fraction)
  let power := n.lastPower
  let size : Int := (natDigits digits).length
  if digits = 0 || power + size < -323 then .zero n.negative
  else if 310 < power + size then .infinity n.negative
  else if 0 ≤ power then .ofRatio n.negative (digits * Nat.pow 10 power.toNat) 1
  else .ofRatio n.negative digits (Nat.pow 10 (-power).toNat)

/-! ## Reading by scaling -/

/-- Takes digits into a significand as long as it fits 64 bits; gives the significand, and how many
digits were left over. -/
def accumulate (significand : Nat) : List Char → Nat × Nat
  | [] => (significand, 0)
  | c :: rest =>
    if 10 * significand + digitValue c < UInt64.size then
      accumulate (10 * significand + digitValue c) rest
    else (significand, rest.length + 1)

/-- The leading digits of a numeral that fit 64 bits, and the power of ten that belongs to the last
of them. Digits after the first that does not fit are dropped. -/
def leading (n : Numeral) : Nat × Int :=
  let (s, dropped) := accumulate 0 n.whole
  let (s, unused) := accumulate s n.fraction
  (s, (dropped : Int) - ((n.fraction.length : Int) - unused))

/-- Divides by `10 ^ 308` until the remaining power is within the table of powers up to 308, then
multiplies or divides by that power; `none` when the result is too large. -/
def scaleBy : (fuel : Nat) → Double → Int → Option Double
  | 0, x, _ => some x
  | fuel + 1, x, e =>
    if e.natAbs ≤ 308 then
      if 0 ≤ e then
        let y := x.mul (.powerOfTen e.natAbs)
        if y.isInfinite then none else some y
      else some (x.div (.powerOfTen e.natAbs))
    else if x.isZero then some x
    else if 0 ≤ e then none
    else scaleBy fuel (x.div (.powerOfTen 308)) (e + 308)

/-- The largest exponent that is still computed with; a written one beyond it counts as infinite. -/
def maxExponent : Int := 2147483647

/-- A numeral read as its leading digits times a power of ten, each rounded to floating point:
within a few units of the last place of the nearest number, and `none` when out of range. -/
def scaled? (n : Numeral) : Option Double :=
  let (significand, power) := n.leading
  let written := n.exponent.getD 0
  let magnitude : Option Double :=
    if maxExponent < written then if significand = 0 then some (.zero false) else none
    else if written < -maxExponent then some (.zero false)
    else scaleBy 5 (.ofNat significand) (max (-maxExponent - 1) (min maxExponent (power + written)))
  magnitude.map fun x => if n.negative then x.neg else x

end Numeral

end Fixtures
