/-
Sources of random words, and computations that draw from one. A draw either gives a value or fails;
either way the source is left where the drawing stopped.
-/
import Fixtures.Memory

namespace Fixtures

/-- A source of random words: a state from which a word can be taken. -/
class WordSource (σ : Type) where
  next : σ → UInt32 × σ

/-- An endless tape of words, read from a position. -/
structure Tape where
  words : Nat → UInt32
  position : Nat

instance : WordSource Tape where
  next t := (t.words t.position, { t with position := t.position + 1 })

/-- The reasons for which nothing can be drawn. -/
inductive DrawError where
  /-- The upper bound lies below the lower one. -/
  | emptyRange
  /-- A bound of a range of floating-point numbers, or its width, is not finite. -/
  | unboundedRange
  /-- The instant drawn lies beyond the calendar. -/
  | beyondCalendar
  /-- The list would take more memory than can be addressed. -/
  | tooLarge
  deriving DecidableEq, Repr

/-- A computation that draws words from a source. -/
abbrev Draw (σ : Type) := ExceptT DrawError (StateM σ)

namespace Draw

variable {σ α : Type}

/-- Runs a computation from a source; gives the outcome and the source after it. -/
def run (m : Draw σ α) (source : σ) : Except DrawError α × σ := m source

/-- Repeats a computation and puts its values, newest first, in front of those there are. -/
def repeatOnto (m : Draw σ α) : Nat → List α → σ → Except DrawError (List α) × σ
  | 0, acc, source => (.ok acc.reverse, source)
  | n + 1, acc, source =>
    match m.run source with
    | (.ok a, source) => repeatOnto m n (a :: acc) source
    | (.error e, source) => (.error e, source)

/-- Repeats a computation and lists its values. -/
def replicate (n : Nat) (m : Draw σ α) : Draw σ (List α) := repeatOnto m n []

/-- A list of `n` values of `bytes` bytes each. Its memory is set aside before the first one is
drawn. -/
def list (bytes n : Nat) (m : Draw σ α) : Draw σ (List α) :=
  if Memory.holds bytes n then replicate n m else throw .tooLarge

variable [WordSource σ]

/-- The next word. -/
def word32 : Draw σ UInt32 := fun source =>
  let (word, source) := WordSource.next source
  (.ok word, source)

/-- The next two words as one of 64 bits; the first is the low half. -/
def word64 : Draw σ UInt64 := do
  let low ← word32
  let high ← word32
  pure (low.toUInt64 ||| (high.toUInt64 <<< 32))

end Draw

end Fixtures
