/-
The ChaCha stream of eight rounds as a source of words. The key is spread from a 64-bit seed, blocks
are counted from zero by a 64-bit counter, and the nonce is zero.
-/
import Fixtures.Random.Source

namespace Fixtures

/-- Rotates the bits of a word to the left, for a count from 1 to 31. -/
def rotateLeft (x : UInt32) (count : UInt32) : UInt32 := (x <<< count) ||| (x >>> (32 - count))

namespace ChaCha

/-! ## The block function -/

/-- Four words: a row of the state of a block, which has four rows. -/
structure Row where
  w0 : UInt32
  w1 : UInt32
  w2 : UInt32
  w3 : UInt32
  deriving DecidableEq, Inhabited

namespace Row

def add (x y : Row) : Row := ⟨x.w0 + y.w0, x.w1 + y.w1, x.w2 + y.w2, x.w3 + y.w3⟩

def xor (x y : Row) : Row := ⟨x.w0 ^^^ y.w0, x.w1 ^^^ y.w1, x.w2 ^^^ y.w2, x.w3 ^^^ y.w3⟩

/-- Rotates the bits of each word. -/
def bits (count : UInt32) (x : Row) : Row :=
  ⟨rotateLeft x.w0 count, rotateLeft x.w1 count, rotateLeft x.w2 count, rotateLeft x.w3 count⟩

/-- Moves the words one place to the left. -/
def turn (x : Row) : Row := ⟨x.w1, x.w2, x.w3, x.w0⟩

def toList (x : Row) : List UInt32 := [x.w0, x.w1, x.w2, x.w3]

end Row

/-- The state of a block. -/
structure State where
  a : Row
  b : Row
  c : Row
  d : Row
  deriving DecidableEq, Inhabited

namespace State

/-- Four quarter rounds side by side, one on each column. -/
def columns (s : State) : State :=
  let a := s.a.add s.b
  let d := (s.d.xor a).bits 16
  let c := s.c.add d
  let b := (s.b.xor c).bits 12
  let a := a.add b
  let d := (d.xor a).bits 8
  let c := c.add d
  let b := (b.xor c).bits 7
  ⟨a, b, c, d⟩

/-- A round on the columns and one on the diagonals, which stand as columns once the rows are
turned. -/
def doubleRound (s : State) : State :=
  let s := s.columns
  let s := columns ⟨s.a, s.b.turn, s.c.turn.turn, s.d.turn.turn.turn⟩
  ⟨s.a, s.b.turn.turn.turn, s.c.turn.turn, s.d.turn⟩

/-- Eight rounds, and the state before them added to the state after them. -/
def mix (s : State) : State :=
  let t := s.doubleRound.doubleRound.doubleRound.doubleRound
  ⟨t.a.add s.a, t.b.add s.b, t.c.add s.c, t.d.add s.d⟩

def toList (s : State) : List UInt32 := s.a.toList ++ s.b.toList ++ s.c.toList ++ s.d.toList

end State

/-- The first row of every block. -/
def constants : Row := ⟨0x61707865, 0x3320646e, 0x79622d32, 0x6b206574⟩

/-- The sixteen words of a block. -/
def block (low high : Row) (number : Nat) : List UInt32 :=
  let counter := UInt64.ofNat number
  (State.mix ⟨constants, low, high, ⟨counter.toUInt32, (counter >>> 32).toUInt32, 0, 0⟩⟩).toList

/-! ## The key of a seed -/

/-- The state of the seed's own generator after one step. -/
def seedStep (state : UInt64) : UInt64 := state * 6364136223846793005 + 11634580027462260723

/-- The word that a state of the seed's generator stands for: its high bits, mixed and rotated to the
right by its highest five. -/
def seedWord (state : UInt64) : UInt32 :=
  let x := (((state >>> 18) ^^^ state) >>> 27).toUInt32
  let count := (state >>> 59).toUInt32
  (x >>> count) ||| (x <<< ((32 - count) % 32))

/-- The next `n` words of the seed's generator. -/
def seedWords : (n : Nat) → UInt64 → List UInt32
  | 0, _ => []
  | n + 1, state => seedWord (seedStep state) :: seedWords n (seedStep state)

end ChaCha

/-! ## The stream -/

/-- A place in the stream of a key: the words left of the current block, and the number of the next
block. -/
structure ChaCha where
  low : ChaCha.Row
  high : ChaCha.Row
  ready : List UInt32
  nextBlock : Nat
  deriving DecidableEq, Inhabited

namespace ChaCha

/-- The stream of a seed. -/
def ofSeed (seed : UInt64) : ChaCha :=
  let key (i : Nat) := (seedWords 8 seed).getD i 0
  ⟨⟨key 0, key 1, key 2, key 3⟩, ⟨key 4, key 5, key 6, key 7⟩, [], 0⟩

/-- The next word of the stream. -/
def next (s : ChaCha) : UInt32 × ChaCha :=
  match s.ready with
  | word :: rest => (word, { s with ready := rest })
  | [] =>
    let words := block s.low s.high s.nextBlock
    (words.headD 0, { s with ready := words.tail, nextBlock := s.nextBlock + 1 })

instance : WordSource ChaCha := ⟨next⟩

/-- The number of words taken so far. -/
def taken (s : ChaCha) : Nat := 16 * s.nextBlock - s.ready.length

end ChaCha

end Fixtures
