/-
Which fixtures of a run share a seed. The low bits of the seed hash depend on the low bits of the run
seed alone, so the run seeds for which two keys have one hash can be lifted bit by bit: a number of
`k + 1` bits agrees only if its low `k` bits do. Lifted over all bits, the search leaves no run seed
for five of the six pairs of kinds, and eight for the document and the array.
-/
import Mathlib.Algebra.Group.Nat.Defs
import Fixtures.Kind

namespace Fixtures

/-! ## Low bits of the hash -/

/-- The low `k` bits of a step of the hash, from the low bits before it. -/
def mixLow (k : Nat) (hash : Nat) (byte : UInt8) : Nat := (hash ^^^ byte.toNat) * 0x100000001b3 % 2 ^ k

/-- The low `k` bits of the hash of a key, from the low bits of the run seed. -/
def hashLow (k : Nat) (seed : Nat) (key : List UInt8) : Nat :=
  key.foldl (mixLow k) ((seed ^^^ 0xcbf29ce484222325) % 2 ^ k)

theorem mod_two_pow_mod {k : Nat} (hk : k ≤ 64) (n : Nat) : n % 2 ^ 64 % 2 ^ k = n % 2 ^ k :=
  Nat.mod_mod_of_dvd n (Nat.pow_dvd_pow 2 hk)

/-- The low bits of a sum without carries depend on the low bits of both sides. -/
theorem xor_mod_left (k a b : Nat) : (a % 2 ^ k ^^^ b) % 2 ^ k = (a ^^^ b) % 2 ^ k := by
  rw [Nat.xor_mod_two_pow, Nat.xor_mod_two_pow, Nat.mod_mod]

theorem mixByte_mod {k : Nat} (hk : k ≤ 64) (hash : UInt64) (byte : UInt8) :
    (mixByte hash byte).toNat % 2 ^ k = mixLow k (hash.toNat % 2 ^ k) byte := by
  have hbyte : byte.toUInt64.toNat = byte.toNat := UInt8.toNat_toUInt64 byte
  rw [mixByte, UInt64.toNat_mul, UInt64.toNat_xor, hbyte, mod_two_pow_mod hk, mixLow]
  rw [Nat.mul_mod (hash.toNat ^^^ _), ← xor_mod_left, ← Nat.mul_mod]
  rfl

theorem hashSeed_mod {k : Nat} (hk : k ≤ 64) (seed : UInt64) (key : List UInt8) :
    (hashSeed seed key).toNat % 2 ^ k = hashLow k (seed.toNat % 2 ^ k) key := by
  have hfold : ∀ (key : List UInt8) (hash : UInt64),
      (key.foldl mixByte hash).toNat % 2 ^ k = key.foldl (mixLow k) (hash.toNat % 2 ^ k) := by
    intro key
    induction key with
    | nil => exact fun _ => rfl
    | cons byte key ih =>
      intro hash
      rw [List.foldl_cons, List.foldl_cons, ih, mixByte_mod hk]
  rw [hashSeed, hfold, hashLow, UInt64.toNat_xor, xor_mod_left]
  rfl

/-! ## Lifting -/

/-- The numbers of `k` bits whose hashes of two keys agree in their low `k` bits: each is one of fewer
bits, with or without the next bit. -/
def agreeing (key other : List UInt8) : (k : Nat) → List Nat
  | 0 => [0]
  | k + 1 =>
    ((agreeing key other k).flatMap fun n => [n, n + 2 ^ k]).filter fun n =>
      hashLow (k + 1) n key = hashLow (k + 1) n other

theorem mem_agreeing {seed : UInt64} {key other : List UInt8} (h : hashSeed seed key = hashSeed seed other) :
    ∀ k ≤ 64, seed.toNat % 2 ^ k ∈ agreeing key other k := by
  intro k
  induction k with
  | zero => intro _; simp [agreeing, Nat.mod_one]
  | succ k ih =>
    intro hk
    rw [agreeing, List.mem_filter, List.mem_flatMap]
    refine ⟨⟨_, ih (by omega), ?_⟩, ?_⟩
    · -- the next bit is clear or set
      rw [Nat.mod_pow_succ]
      rcases Nat.mod_two_eq_zero_or_one (seed.toNat / 2 ^ k) with hbit | hbit <;> simp [hbit]
    · rw [decide_eq_true_eq, ← hashSeed_mod hk, ← hashSeed_mod hk, h]

/-! ## Shared seeds -/

namespace Kind

/-- The bytes of the identifier. -/
def key (k : Kind) : List UInt8 := k.id.toUTF8.data.toList

/-- The low 61 bits of the run seeds for which the document and the array share a seed. -/
def sharedLow : Nat := 1114920495185204660

theorem mod_eq_of_mem_agreeing : ∀ n ∈ agreeing nested.key array.key 64, n % 2 ^ 61 = sharedLow := by
  decide +kernel

/-- No other two kinds agree even in the low six bits. -/
theorem agreeing_eq_nil : ∀ j ∈ all, ∀ k ∈ all, j ≠ k → ¬ (j = nested ∧ k = array) → ¬ (j = array ∧ k = nested) →
    agreeing j.key k.key 6 = [] := by decide +kernel

/-- The high three bits of the run seed do not matter. -/
theorem shared_of_high : ∀ i < 8,
    nested.seed (.ofNat (sharedLow + i * 2 ^ 61)) = array.seed (.ofNat (sharedLow + i * 2 ^ 61)) := by
  decide +kernel

theorem nested_seed_eq_array_iff (s : UInt64) :
    nested.seed s = array.seed s ↔ s.toNat % 2 ^ 61 = sharedLow := by
  constructor
  · intro h
    have hmem : s.toNat % 2 ^ 64 ∈ agreeing nested.key array.key 64 := mem_agreeing h 64 (Nat.le_refl 64)
    rw [Nat.mod_eq_of_lt s.toNat_lt] at hmem
    exact mod_eq_of_mem_agreeing _ hmem
  · intro h
    -- the run seed is one of eight, by its high three bits
    have hs : s = .ofNat (sharedLow + s.toNat / 2 ^ 61 * 2 ^ 61) := by
      rw [← h, Nat.mod_add_div', UInt64.ofNat_toNat]
    rw [hs]
    exact shared_of_high _ (by have := s.toNat_lt; omega)

/-- Two kinds of a run share a seed exactly if they are the document and the array, and the low 61
bits of the run seed are `sharedLow`. -/
theorem seed_eq_iff (s : UInt64) (j k : Kind) (hjk : j ≠ k) :
    j.seed s = k.seed s ↔
      ((j = nested ∧ k = array) ∨ (j = array ∧ k = nested)) ∧ s.toNat % 2 ^ 61 = sharedLow := by
  by_cases h1 : j = nested ∧ k = array
  · rw [h1.1, h1.2, nested_seed_eq_array_iff]
    simp
  by_cases h2 : j = array ∧ k = nested
  · rw [h2.1, h2.2, eq_comm, nested_seed_eq_array_iff]
    simp
  · constructor
    · intro h
      have hmem : s.toNat % 2 ^ 6 ∈ agreeing j.key k.key 6 := mem_agreeing h 6 (by decide)
      rw [agreeing_eq_nil j (mem_all j) k (mem_all k) hjk h1 h2] at hmem
      cases hmem
    · rintro ⟨h | h, -⟩
      · exact absurd h h1
      · exact absurd h h2

/-- The seeds of the fixtures of a run are pairwise distinct exactly if the low 61 bits of the run
seed are not `sharedLow`. -/
theorem seeds_distinct_iff (s : UInt64) :
    (∀ j k : Kind, j ≠ k → j.seed s ≠ k.seed s) ↔ s.toNat % 2 ^ 61 ≠ sharedLow := by
  constructor
  · intro h hlow
    exact h nested array (by decide) ((nested_seed_eq_array_iff s).2 hlow)
  · intro hlow j k hjk h
    exact hlow ((seed_eq_iff s j k hjk).1 h).2

/-- A run seed with which the document and the array are drawn from one stream. -/
theorem seed_shared_by_nested_array : nested.seed 1114920495185204660 = array.seed 1114920495185204660 := by
  decide +kernel

end Kind

end Fixtures
