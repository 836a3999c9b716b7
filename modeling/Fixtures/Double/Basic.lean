/-
Binary floating-point numbers of 64 bits. A number is its bit pattern; a finite one stands for
`± significand · 2 ^ exponent`, and `ofRatio` goes back from an exact fraction to the nearest
pattern. Everything is computed in `Nat` and `Int`, so closed instances evaluate in the kernel.
-/

namespace Fixtures

/-- A binary floating-point number of 64 bits, given by its bit pattern. -/
structure Double where
  bits : UInt64
  deriving DecidableEq, Inhabited

namespace Double

/-! ## Fields of the pattern -/

/-- The sign bit, set for `-0.0` too. -/
def negative (x : Double) : Bool := x.bits >>> 63 == 1

/-- Two to the power 52, the significand of 1. -/
def unitSignificand : Nat := 0x10000000000000

/-- The exponent field, from 0 to 2047. -/
def biased (x : Double) : Nat := ((x.bits >>> 52) &&& 0x7ff).toNat

/-- The 52 stored bits of the significand. -/
def fraction (x : Double) : Nat := (x.bits &&& 0xfffffffffffff).toNat

/-- The pattern without its sign; it grows with the magnitude. -/
def magnitude (x : Double) : Nat := (x.bits &&& 0x7fffffffffffffff).toNat

/-- The magnitude pattern of the infinities. -/
def infinityMagnitude : Nat := 0x7ff0000000000000

def isFinite (x : Double) : Bool := x.magnitude < infinityMagnitude

def isInfinite (x : Double) : Bool := x.magnitude == infinityMagnitude

def isNaN (x : Double) : Bool := infinityMagnitude < x.magnitude

def isZero (x : Double) : Bool := x.magnitude == 0

/-- The integer that a finite number multiplies by a power of two. -/
def significand (x : Double) : Nat :=
  if x.biased = 0 then x.fraction else x.fraction + unitSignificand

/-- The power of two that belongs to the significand of a finite number. -/
def exponent (x : Double) : Int := (max x.biased 1 : Nat) - 1075

/-- The pattern with the given sign and magnitude. -/
def ofMagnitude (negative : Bool) (magnitude : Nat) : Double :=
  ⟨(if negative then 0x8000000000000000 else 0) ||| UInt64.ofNat magnitude⟩

def zero (negative : Bool) : Double := ofMagnitude negative 0

def infinity (negative : Bool) : Double := ofMagnitude negative infinityMagnitude

/-- The quiet NaN that arithmetic gives. -/
def nan : Double := ⟨0x7ff8000000000000⟩

/-! ## The nearest number to a fraction -/

/-- `⌊log₂ (num / den)⌋` for positive `num` and `den`. -/
def floorLog2 (num den : Nat) : Int :=
  let guess : Int := (Nat.log2 num : Int) - Nat.log2 den
  let reached := if 0 ≤ guess then den * Nat.pow 2 guess.toNat ≤ num
    else den ≤ num * Nat.pow 2 (-guess).toNat
  if reached then guess else guess - 1

/-- The quotient rounded to the nearest integer, a half going to the even neighbour. -/
def roundHalfEven (num den : Nat) : Nat :=
  let q := num / den
  let r := num % den
  if 2 * r < den then q
  else if den < 2 * r then q + 1
  else if q % 2 = 0 then q else q + 1

/-- `num / (den · 2 ^ e)` as a quotient of integers. -/
def shiftRatio (num den : Nat) (e : Int) : Nat × Nat :=
  if 0 ≤ e then (num, den * Nat.pow 2 e.toNat) else (num * Nat.pow 2 (-e).toNat, den)

/-- The magnitude pattern nearest to `num / den`, ties to even. The significand is rounded at the
exponent of the binade, at least that of the subnormal numbers; adding it to the exponent field
carries a full significand into the next binade. -/
def nearestMagnitude (num den : Nat) : Nat :=
  if num = 0 then 0
  else
    let e := max (floorLog2 num den - 52) (-1074)
    let (n, d) := shiftRatio num den e
    min ((e + 1074).toNat * unitSignificand + roundHalfEven n d) infinityMagnitude

/-- The number nearest to `± num / den`, ties to even; too large a magnitude gives infinity. -/
def ofRatio (negative : Bool) (num den : Nat) : Double :=
  ofMagnitude negative (nearestMagnitude num den)

/-- The number nearest to `± n · 2 ^ e`. -/
def ofScaled (negative : Bool) (n : Nat) (e : Int) : Double :=
  let (num, den) := shiftRatio n 1 (-e)
  ofRatio negative num den

def ofNat (n : Nat) : Double := ofRatio false n 1

def ofInt (n : Int) : Double := ofRatio (n < 0) n.natAbs 1

/-- A finite number as a signed multiple of `2 ^ e`, for an `e` not above its exponent. -/
def signedAt (x : Double) (e : Int) : Int :=
  let n : Int := x.significand * Nat.pow 2 (x.exponent - e).toNat
  if x.negative then -n else n

end Double

end Fixtures
