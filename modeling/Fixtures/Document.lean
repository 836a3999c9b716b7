/-
Reading values from documents. A document format gives access to its leaves and to the fields of a
record; what is read is the same for all formats.
-/
import Fixtures.Double.Basic

namespace Fixtures

/-- Trees from which values are read. -/
class Document (τ : Type) where
  /-- The fields of a record by name, for the names that it may have; a sequence gives them in the
  order of the names. -/
  fields? : List String → τ → Option (List (String × τ))
  /-- Whether the tree says that there is no value. -/
  isNull : τ → Bool
  integer? : τ → Option Int
  double? : τ → Option Double
  text? : τ → Option String
  bool? : τ → Option Bool

namespace Document

variable {τ α : Type}

/-- A field that must be there. -/
def required (fields : List (String × τ)) (name : String) (read : τ → Option α) : Option α :=
  match fields.lookup name with
  | some v => read v
  | none => none

/-- A field that may be missing, with the value that it then has. -/
def optional (fields : List (String × τ)) (name : String) (default : α) (read : τ → Option α) :
    Option α :=
  match fields.lookup name with
  | some v => read v
  | none => some default

variable [Document τ]

/-- An integer between bounds. -/
def integerIn? (low high : Int) (v : τ) : Option Int :=
  match integer? v with
  | some n => if low ≤ n ∧ n ≤ high then some n else none
  | none => none

def int64? (v : τ) : Option Int64 := (integerIn? (-0x8000000000000000) 0x7fffffffffffffff v).map Int64.ofInt

def int32? (v : τ) : Option Int32 := (integerIn? (-0x80000000) 0x7fffffff v).map Int32.ofInt

def uint64? (v : τ) : Option UInt64 := (integerIn? 0 0xffffffffffffffff v).map fun n => .ofNat n.toNat

def uint32? (v : τ) : Option UInt32 := (integerIn? 0 0xffffffff v).map fun n => .ofNat n.toNat

def uint8? (v : τ) : Option UInt8 := (integerIn? 0 0xff v).map fun n => .ofNat n.toNat

/-- A value, or none for a null. -/
def nullable (read : τ → Option α) (v : τ) : Option (Option α) :=
  if isNull v then some none else (read v).map some

end Document

end Fixtures
