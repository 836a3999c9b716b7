/-
Random texts: letters, words from a list, and identifiers of version four.
-/
import Fixtures.Random.Uniform

namespace Fixtures

def lowercaseLetters : List Char := "abcdefghijklmnopqrstuvwxyz".toList

def uppercaseLetters : List Char := "ABCDEFGHIJKLMNOPQRSTUVWXYZ".toList

/-! ## Identifiers -/

/-- Two lowercase hexadecimal digits of a byte. -/
def hexByte (b : UInt8) : List Char :=
  let digit (n : Nat) : Char := "0123456789abcdef".toList.getD n '0'
  [digit (b.toNat / 16), digit (b.toNat % 16)]

/-- Sixteen bytes as an identifier: the version, four, replaces the high half of byte 6 and the
variant the two highest bits of byte 8, and the groups of bytes are joined by hyphens. -/
def uuidText (bytes : List UInt8) : List Char :=
  let bytes := bytes.modify 6 fun b => (b &&& 0x0f) ||| 0x40
  let bytes := bytes.modify 8 fun b => (b &&& 0x3f) ||| 0x80
  let hex (group : List UInt8) : List Char := group.flatMap hexByte
  hex (bytes.take 4) ++ '-' :: hex ((bytes.drop 4).take 2) ++ '-' :: hex ((bytes.drop 6).take 2) ++
    '-' :: hex ((bytes.drop 8).take 2) ++ '-' :: hex (bytes.drop 10)

namespace Draw

variable {σ : Type} [WordSource σ]

/-- A letter of an alphabet. -/
def letter (alphabet : List Char) : Draw σ Char := do
  let i ← size 0 (alphabet.length - 1)
  pure (alphabet.getD i 'a')

/-- The bytes of a letter. -/
def letterBytes : Nat := 1

/-- A number of lowercase letters. -/
def lowercase (length : Nat) : Draw σ (List Char) :=
  list letterBytes length (letter lowercaseLetters)

/-- A number of uppercase letters. -/
def uppercase (length : Nat) : Draw σ (List Char) :=
  list letterBytes length (letter uppercaseLetters)

/-- One text of a list; the empty text if the list is empty. -/
def pick (values : List String) : Draw σ String := do
  return (← choose? values).getD ""

/-- The low byte of a word. -/
def byte : Draw σ UInt8 := do
  return (← word32).toUInt8

/-- An identifier of version four. -/
def uuid : Draw σ (List Char) := do
  return uuidText (← replicate 16 byte)

end Draw

end Fixtures
