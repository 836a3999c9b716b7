/-
Bytes shown as text. Bytes that are no text are shown nevertheless: where no character can be read, the
longest beginning of one stands as one replacement mark.
-/
namespace Fixtures

namespace Utf8

/-- The bounds of the bytes that follow a first byte in a character of more than one byte. -/
def followers (first : UInt8) : List (UInt8 × UInt8) :=
  let any : UInt8 × UInt8 := (0x80, 0xbf)
  if first < 0xc2 ∨ 0xf4 < first then []
  else if first < 0xe0 then [any]
  else if first = 0xe0 then [(0xa0, 0xbf), any]
  else if first = 0xed then [(0x80, 0x9f), any]
  else if first < 0xf0 then [any, any]
  else if first = 0xf0 then [(0x90, 0xbf), any, any]
  else if first = 0xf4 then [(0x80, 0x8f), any, any]
  else [any, any, any]

/-- What is left of bytes behind those that are within the bounds, one after the other. -/
def dropFollowers : List (UInt8 × UInt8) → List UInt8 → List UInt8
  | (low, high) :: bounds, b :: rest => if low ≤ b ∧ b ≤ high then dropFollowers bounds rest else b :: rest
  | _, rest => rest

/-- The characters that bytes show, in at most so many steps. -/
def shownWithin : (fuel : Nat) → List UInt8 → List Char
  | 0, _ | _, [] => []
  | fuel + 1, b :: rest =>
    match ByteArray.utf8DecodeChar? ⟨(b :: rest).toArray⟩ 0 with
    | some c => c :: shownWithin fuel ((b :: rest).drop c.utf8Size)
    | none => '\ufffd' :: shownWithin fuel (dropFollowers (followers b) rest)

/-- The characters that bytes show: each step takes a byte. -/
def shown (bytes : List UInt8) : List Char := shownWithin bytes.length bytes

end Utf8

end Fixtures
