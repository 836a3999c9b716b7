/-
Nested values: integers, floating-point numbers, texts, sequences, and mappings whose entries keep
their order and may repeat a key.
-/
import Fixtures.Double.Arithmetic
import Fixtures.Memory

namespace Fixtures

/-- A nested value. -/
inductive Value where
  | integer (n : Int64)
  | float (x : Double)
  | text (s : String)
  | sequence (items : List Value)
  | mapping (entries : List (String × Value))
  deriving Inhabited

/-- The entries of a mapping, oldest first. -/
abbrev Mapping := List (String × Value)

/-- The variants of values. -/
inductive Variant where
  | integer
  | float
  | text
  | sequence
  | mapping
  deriving DecidableEq, Inhabited, Repr

namespace Variant

/-- The variants that hold no other values. -/
def scalars : List Variant := [integer, float, text]

/-- All variants. -/
def all : List Variant := [integer, float, text, sequence, mapping]

def isScalar (v : Variant) : Bool := v ∈ scalars

end Variant

namespace Value

/-- The bytes that a value takes in a sequence. -/
def bytes : Nat := 32

def variant : Value → Variant
  | integer _ => .integer
  | float _ => .float
  | text _ => .text
  | sequence _ => .sequence
  | mapping _ => .mapping

def isScalar (v : Value) : Bool := v.variant.isScalar

/-! ## Parts -/

def integer? : Value → Option Int64
  | integer n => some n
  | _ => none

def float? : Value → Option Double
  | float x => some x
  | _ => none

def text? : Value → Option String
  | text s => some s
  | _ => none

def sequence? : Value → Option (List Value)
  | sequence items => some items
  | _ => none

def mapping? : Value → Option Mapping
  | mapping entries => some entries
  | _ => none

/-! ## Depth -/

mutual

/-- The depth of nesting: 1 for scalars and empty containers. -/
def depth : Value → Nat
  | sequence items => itemsDepth items + 1
  | mapping entries => entriesDepth entries + 1
  | integer _ => 1
  | float _ => 1
  | text _ => 1

/-- The depth of the deepest item, 0 if there is none. -/
def itemsDepth : List Value → Nat
  | [] => 0
  | v :: rest => max v.depth (itemsDepth rest)

/-- The depth of the deepest value of some entries, 0 if there is none. -/
def entriesDepth : List (String × Value) → Nat
  | [] => 0
  | (_, v) :: rest => max v.depth (entriesDepth rest)

end

/-! ## Equality -/

mutual

/-- Equality that compares floating-point numbers by value: both zeros are equal, and a value that
holds a NaN differs from itself. -/
def same : Value → Value → Bool
  | integer m, integer n => m == n
  | float x, float y => x.same y
  | text s, text t => s == t
  | sequence items, sequence others => itemsSame items others
  | mapping entries, mapping others => entriesSame entries others
  | _, _ => false

def itemsSame : List Value → List Value → Bool
  | [], [] => true
  | v :: rest, w :: others => v.same w && itemsSame rest others
  | _, _ => false

def entriesSame : List (String × Value) → List (String × Value) → Bool
  | [], [] => true
  | (k, v) :: rest, (l, w) :: others => k == l && v.same w && entriesSame rest others
  | _, _ => false

end

end Value

namespace Mapping

/-- The bytes that an entry takes in a mapping. -/
def entryBytes : Nat := 56

/-- The empty mapping with room for a number of entries, if that room can be addressed. -/
def withRoom? (count : Nat) : Option Mapping :=
  if Memory.holds entryBytes count then some [] else none

/-- A mapping with one more entry at its end. -/
def push (m : Mapping) (key : String) (value : Value) : Mapping := m ++ [(key, value)]

/-- The oldest value under a key. -/
def get? (m : Mapping) (key : String) : Option Value := m.lookup key

def keys (m : Mapping) : List String := m.map Prod.fst

def values (m : Mapping) : List Value := m.map Prod.snd

/-- The depth of the deepest value, 0 if there is none. -/
def depth (m : Mapping) : Nat := Value.entriesDepth m

/-- Equality entry by entry, in order. -/
def same (m n : Mapping) : Bool := Value.entriesSame m n

end Mapping

end Fixtures
