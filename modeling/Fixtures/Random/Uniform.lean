/-
Uniform draws: integers and floating-point numbers from a range, and the choice from a list.
-/
import Fixtures.Random.Source
import Fixtures.Double.Arithmetic

namespace Fixtures

/-- How many bits an integer is drawn from. -/
inductive Width where
  | narrow
  | wide
  deriving DecidableEq

namespace Width

/-- The number of values that a drawn word can take. -/
def modulus : Width → Nat
  | narrow => UInt32.size
  | wide => UInt64.size

/-- The width for sizes up to a bound: narrow as long as they fit. -/
def forSize (high : Nat) : Width := if high < UInt32.size then narrow else wide

end Width

namespace Draw

variable {σ : Type} [WordSource σ]

/-! ## Integers -/

/-- A word of a width, as a number. -/
def word : Width → Draw σ Nat
  | .narrow => do return (← word32).toNat
  | .wide => do return (← word64).toNat

/-- A number below `range`, the high half of a word times the range. Where the low half is so large
that the bias could show, a second word decides on the carry. -/
def below (width : Width) (range : Nat) : Draw σ Nat := do
  let product := (← word width) * range
  let high := product / width.modulus
  let low := product % width.modulus
  if width.modulus - range < low then
    let product := (← word width) * range
    if width.modulus ≤ low + product / width.modulus then pure (high + 1) else pure high
  else pure high

/-- An integer from `low` to `high`, both included. A range that takes up the whole width is a plain
word, placed so that it agrees with the range modulo the width. -/
def integer (width : Width) (low high : Int) : Draw σ Int := do
  if high < low then throw .emptyRange
  else
    let range := ((high - low + 1) % width.modulus).toNat
    if range = 0 then
      let w ← word width
      pure (low + (w - low) % width.modulus)
    else
      let offset ← below width range
      pure (low + offset)

/-- A size from `low` to `high`, both included. -/
def size (low high : Nat) : Draw σ Nat := do
  return (← integer (.forSize high) low high).toNat

/-- A member of a list; nothing is drawn for the empty list. -/
def choose? {α : Type} (values : List α) : Draw σ (Option α) :=
  if values.isEmpty then pure none
  else do
    let i ← size 0 (values.length - 1)
    pure values[i]?

/-! ## Floating-point numbers -/

/-- A number from 0 up to but not including 1, from the high 53 bits of a word. -/
def fraction : Draw σ Double := do
  let w ← word64
  pure (.ofScaled false (w >>> 11).toNat (-53))

/-- A number from `low` to `high`: 52 bits of a word are placed in the binade of 1, shifted to start
at 0, scaled and moved, each step rounded. -/
def float (low high : Double) : Draw σ Double :=
  if !low.isFinite || !high.isFinite then throw .unboundedRange
  else if !low.le high then throw .emptyRange
  else
    let width := high.sub low
    if !width.isFinite then throw .unboundedRange
    else do
      let w ← word64
      let unit : Double := ⟨(0x3ff0000000000000 : UInt64) ||| (w >>> 12)⟩
      pure (((unit.sub (.ofNat 1)).mul width).add low)

/-- A number from `low` to `high`, rounded to decimal places. -/
def roundedFloat (low high : Double) (scale : UInt32) : Draw σ Double := do
  return (← float low high).roundTo scale

/-- A fair coin: the highest bit of a word is clear. -/
def coin : Draw σ Bool := do
  return (← word64) < 0x8000000000000000

end Draw

end Fixtures
