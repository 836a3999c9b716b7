/-
The seed hash loses nothing. Its factor is odd, so multiplication by it can be undone modulo 2^64, and
undoing the steps for the bytes of a key, the last byte first, leads from the hash back to the run seed.
So for every key, and with it for every kind, different run seeds have different hashes and each number of
64 bits is the hash of one run seed.
-/
import Mathlib.Logic.Function.Basic
import Fixtures.Kind

namespace Fixtures

/-- Undoes one step of the seed hash: the product with the inverse of the factor modulo 2^64, and the byte
taken out again. -/
def unmixByte (hash : UInt64) (byte : UInt8) : UInt64 := (hash * 0xce965057aff6957b) ^^^ byte.toUInt64

/-- The run seed whose hash for a key is a number. -/
def runSeedOf (hash : UInt64) (key : List UInt8) : UInt64 :=
  key.foldr (fun byte hash => unmixByte hash byte) hash ^^^ 0xcbf29ce484222325

/-- The factor of the hash and the one that undoes it. -/
theorem factor_mul_inverse : (0x100000001b3 : UInt64) * 0xce965057aff6957b = 1 := by decide

theorem xor_xor_right (a b : UInt64) : a ^^^ b ^^^ b = a := by
  rw [UInt64.xor_assoc, UInt64.xor_self, UInt64.xor_zero]

/-! ## Steps -/

theorem unmixByte_mixByte (hash : UInt64) (byte : UInt8) : unmixByte (mixByte hash byte) byte = hash := by
  rw [unmixByte, mixByte, UInt64.mul_assoc, factor_mul_inverse, UInt64.mul_one, xor_xor_right]

theorem mixByte_unmixByte (hash : UInt64) (byte : UInt8) : mixByte (unmixByte hash byte) byte = hash := by
  rw [mixByte, unmixByte, xor_xor_right, UInt64.mul_assoc, UInt64.mul_comm 0xce965057aff6957b,
    factor_mul_inverse, UInt64.mul_one]

/-! ## Keys -/

theorem foldr_unmixByte_foldl_mixByte (key : List UInt8) (hash : UInt64) :
    key.foldr (fun byte hash => unmixByte hash byte) (key.foldl mixByte hash) = hash := by
  induction key generalizing hash with
  | nil => rfl
  | cons byte key ih => rw [List.foldl_cons, List.foldr_cons, ih, unmixByte_mixByte]

theorem foldl_mixByte_foldr_unmixByte (key : List UInt8) (hash : UInt64) :
    key.foldl mixByte (key.foldr (fun byte hash => unmixByte hash byte) hash) = hash := by
  induction key with
  | nil => rfl
  | cons byte key ih => rw [List.foldr_cons, List.foldl_cons, mixByte_unmixByte, ih]

theorem runSeedOf_hashSeed (seed : UInt64) (key : List UInt8) : runSeedOf (hashSeed seed key) key = seed := by
  rw [runSeedOf, hashSeed, foldr_unmixByte_foldl_mixByte, xor_xor_right]

theorem hashSeed_runSeedOf (hash : UInt64) (key : List UInt8) : hashSeed (runSeedOf hash key) key = hash := by
  rw [hashSeed, runSeedOf, xor_xor_right, foldl_mixByte_foldr_unmixByte]

theorem hashSeed_bijective (key : List UInt8) : Function.Bijective fun seed => hashSeed seed key := by
  refine Function.bijective_iff_has_inverse.2 ⟨fun hash => runSeedOf hash key, ?_, ?_⟩
  · exact fun seed => runSeedOf_hashSeed seed key
  · exact fun hash => hashSeed_runSeedOf hash key

/-! ## Kinds -/

/-- Over all run seeds, the hash for any key, and with it the seed of a fixture of any kind, takes every
number of 64 bits once. -/
theorem Kind.seed_bijective (key : List UInt8) (k : Kind) :
    (Function.Bijective fun seed => hashSeed seed key) ∧ Function.Bijective k.seed :=
  ⟨hashSeed_bijective key, hashSeed_bijective k.id.toUTF8.data.toList⟩

end Fixtures
