/-
The shortest decimal digits of a floating-point number: of all decimals with the least number of
digits that round to the number, the nearest to it, and its numeral in positional or exponent form.
-/
import Fixtures.Decimal.Numeral

namespace Fixtures

/-- A positive decimal `digits · 10 ^ power`. -/
structure Decimal where
  digits : Nat
  power : Int
  deriving DecidableEq, Inhabited

namespace Decimal

/-- Compares `a · 10 ^ p` with `b · 2 ^ q` exactly. -/
def compareBinary (a : Nat) (p : Int) (b : Nat) (q : Int) : Ordering :=
  compare (a * Nat.pow 10 p.toNat * Nat.pow 2 (-q).toNat) (b * Nat.pow 2 q.toNat * Nat.pow 10 (-p).toNat)

/-- Drops trailing zeros, at most `fuel` of them. -/
def trim : (fuel : Nat) → Decimal → Decimal
  | 0, d => d
  | fuel + 1, d =>
    if d.digits ≠ 0 ∧ d.digits % 10 = 0 then trim fuel ⟨d.digits / 10, d.power + 1⟩ else d

/-- The power of ten of the first digit. -/
def leadingPower (d : Decimal) : Int := d.power + (natDigits d.digits).length - 1

end Decimal

namespace Double

/-! ## The rounding interval -/

/-- Both ends of the interval of reals that round to a finite number, in quarters of its last place:
the half gap below is a quarter where the binade below is finer. -/
def roundingEnds (x : Double) : Nat × Nat :=
  let m := 4 * x.significand
  (if x.fraction = 0 ∧ 1 < x.biased then m - 1 else m - 2, m + 2)

/-- Whether the decimal lies in the rounding interval; its ends belong to it if the significand is
even, because ties go to even. -/
def roundsFrom (x : Double) (d : Decimal) : Bool :=
  let (low, high) := x.roundingEnds
  let q := x.exponent - 2
  let closed := x.significand % 2 = 0
  (match Decimal.compareBinary d.digits d.power low q with
    | .gt => true
    | .eq => closed
    | .lt => false) &&
  (match Decimal.compareBinary d.digits d.power high q with
    | .lt => true
    | .eq => closed
    | .gt => false)

/-! ## The search -/

/-- `⌊x / 10 ^ p⌋` for a finite number's magnitude. -/
def floorOnGrid (x : Double) (p : Int) : Nat :=
  (x.significand * Nat.pow 2 x.exponent.toNat * Nat.pow 10 (-p).toNat) /
    (Nat.pow 2 (-x.exponent).toNat * Nat.pow 10 p.toNat)

/-- Whether the magnitude is nearer to `a · 10 ^ p` than to `(a + 1) · 10 ^ p`, compared with the
point half way between them. -/
def sideOnGrid (x : Double) (a : Nat) (p : Int) : Ordering :=
  Decimal.compareBinary (2 * a + 1) p (2 * x.significand) x.exponent

/-- The neighbour of the magnitude on the grid of multiples of `10 ^ p` that rounds to it: the only
one, or the nearer of two, or the even one of two equally near. -/
def onGrid? (x : Double) (p : Int) : Option Decimal :=
  let a := x.floorOnGrid p
  let below : Decimal := ⟨a, p⟩
  let above : Decimal := ⟨a + 1, p⟩
  match a != 0 && x.roundsFrom below, x.roundsFrom above with
  | false, false => none
  | true, false => some below
  | false, true => some above
  | true, true =>
    match x.sideOnGrid a p with
    | .lt => some above
    | .gt => some below
    | .eq => some (if a % 2 = 0 then below else above)

/-- A power of ten at or just above the first digit of a positive finite number. -/
def leadingGuess (x : Double) : Int :=
  (((x.significand.log2 : Int) + x.exponent) * 30103).fdiv 100000 + 1

/-- Tries finer and finer grids until one holds a decimal that rounds to the number. -/
def searchGrids (x : Double) : (fuel : Nat) → (p : Int) → Decimal
  | 0, p => ⟨x.floorOnGrid p, p⟩
  | fuel + 1, p => (x.onGrid? p).getD (searchGrids x fuel (p - 1))

/-- The shortest digits of a finite number's magnitude, without trailing zeros; 0 for a zero. -/
def shortest (x : Double) : Decimal :=
  if x.isZero then ⟨0, 0⟩ else (x.searchGrids 20 x.leadingGuess).trim 20

end Double

/-! ## Numerals -/

/-- How a format writes floating-point numbers: the least and the greatest power of ten of the first
digit that is written positionally, and whether a positive exponent has a sign. -/
structure FloatStyle where
  leastPositional : Int
  greatestPositional : Int
  plus : Bool

namespace Decimal

/-- The numeral of a decimal. A positional one has at least one digit on both sides of the point;
one with an exponent has one digit before the point. -/
def numeral (style : FloatStyle) (negative : Bool) (d : Decimal) : Numeral :=
  let digits := natDigits d.digits
  let e := d.leadingPower
  if d.digits = 0 then ⟨negative, ['0'], ['0'], none⟩
  else if style.leastPositional ≤ e ∧ e ≤ style.greatestPositional then
    if 0 ≤ d.power then ⟨negative, digits ++ List.replicate d.power.toNat '0', ['0'], none⟩
    else if 0 ≤ e then ⟨negative, digits.take (e.toNat + 1), digits.drop (e.toNat + 1), none⟩
    else ⟨negative, ['0'], List.replicate (-e - 1).toNat '0' ++ digits, none⟩
  else ⟨negative, digits.take 1, digits.drop 1, some e⟩

end Decimal

namespace Double

/-- The shortest numeral of a finite number; NaN and the infinities have none. -/
def numeral? (style : FloatStyle) (x : Double) : Option Numeral :=
  if x.isFinite then some (x.shortest.numeral style x.negative) else none

/-- The text of any number, with words for NaN and the infinities. -/
def text (style : FloatStyle) (x : Double) : List Char :=
  match x.numeral? style with
  | some n => n.text style.plus
  | none => (if x.isNaN then "NaN" else if x.negative then "-inf" else "inf").toList

end Double

end Fixtures
