/-
Arithmetic and comparison of 64-bit floating-point numbers: each operation is the exact one
followed by rounding to nearest, ties to even, with the usual rules for zeros, infinities and NaN.
-/
import Fixtures.Double.Basic

namespace Fixtures.Double

/-! ## Sign -/

def neg (x : Double) : Double := ⟨x.bits ^^^ 0x8000000000000000⟩

def abs (x : Double) : Double := ⟨x.bits &&& 0x7fffffffffffffff⟩

/-! ## Sum, product, quotient -/

def add (x y : Double) : Double :=
  if x.isNaN || y.isNaN then nan
  else if x.isInfinite then
    if y.isInfinite && x.negative != y.negative then nan else x
  else if y.isInfinite then y
  else
    let e := min x.exponent y.exponent
    let sum := x.signedAt e + y.signedAt e
    if sum = 0 then zero (x.negative && y.negative)
    else ofScaled (sum < 0) sum.natAbs e

def sub (x y : Double) : Double := add x (neg y)

def mul (x y : Double) : Double :=
  let negative := x.negative != y.negative
  if x.isNaN || y.isNaN then nan
  else if x.isInfinite || y.isInfinite then
    if x.isZero || y.isZero then nan else infinity negative
  else ofScaled negative (x.significand * y.significand) (x.exponent + y.exponent)

def div (x y : Double) : Double :=
  let negative := x.negative != y.negative
  if x.isNaN || y.isNaN then nan
  else if x.isInfinite then
    if y.isInfinite then nan else infinity negative
  else if y.isInfinite then zero negative
  else if y.isZero then
    if x.isZero then nan else infinity negative
  else
    let (num, den) := shiftRatio x.significand y.significand (y.exponent - x.exponent)
    ofRatio negative num den

/-! ## Order -/

/-- The place of a number on the line; both zeros have place 0. -/
def place (x : Double) : Int := if x.negative then -(x.magnitude : Int) else x.magnitude

/-- Numeric equality: both zeros are equal and NaN equals nothing. -/
def same (x y : Double) : Bool := !x.isNaN && !y.isNaN && x.place == y.place

/-- Numeric order, false as soon as one side is NaN. -/
def le (x y : Double) : Bool := !x.isNaN && !y.isNaN && decide (x.place ≤ y.place)

def lt (x y : Double) : Bool := !x.isNaN && !y.isNaN && decide (x.place < y.place)

/-! ## Whole numbers -/

/-- The nearest whole number, a half going away from zero; the sign is kept. -/
def round (x : Double) : Double :=
  if !x.isFinite || 0 ≤ x.exponent then x
  else
    let unit := Nat.pow 2 (-x.exponent).toNat
    ofScaled x.negative ((2 * x.significand + unit) / (2 * unit)) 0

/-! ## Powers of ten -/

/-- The number nearest to `10 ^ n`. -/
def powerOfTen (n : Nat) : Double := ofNat (Nat.pow 10 n)

/-- Repeated squaring over the low `k` bits of `n`: multiplies `result` by the power of `base` that
they spell, rounding at each step. -/
def squaringLoop : (k : Nat) → (base result : Double) → (n : Nat) → Double
  | 0, _, result, _ => result
  | k + 1, base, result, n =>
    squaringLoop k (mul base base) (if n % 2 = 1 then mul result base else result) (n / 2)

/-- `x ^ n` by repeated squaring; a negative power is the reciprocal of the positive one. -/
def power (x : Double) (n : Int) : Double :=
  let p := squaringLoop (n.natAbs.log2 + 1) x (ofNat 1) n.natAbs
  if n < 0 then div (ofNat 1) p else p

/-! ## Rounding to decimal places -/

/-- The factor of a scale: ten to the power of the scale read as a signed 32-bit number. -/
def scaleFactor (scale : UInt32) : Double := power (ofNat 10) scale.toInt32.toInt

/-- A number rounded half away from zero at `scale` decimal places, each step in floating point. -/
def roundTo (x : Double) (scale : UInt32) : Double :=
  let factor := scaleFactor scale
  div (round (mul x factor)) factor

end Fixtures.Double
