/-
Draws that reach a value: on some words they give this value, and take these words and no more. What a draw that is
put together reaches is read off its parts, whose words follow each other. Every integer of a range is reached, up to
both ends and for the range that takes up the whole width, and so is every size, letter and text of letters.
-/
import Fixtures.Proofs.Draw.Repetition
import Fixtures.Proofs.Draw.Text

namespace Fixtures.Draw

variable {σ α β : Type} [WordSource σ]

/-! ## Words that are taken -/

/-- The words that a source gives next, and the source behind them. -/
def Gives : List UInt32 → σ → σ → Prop
  | [], s, s' => s = s'
  | word :: rest, s, s' => (WordSource.next s).1 = word ∧ Gives rest (WordSource.next s).2 s'

/-- On some words the draw gives a value, and takes these words and no more. -/
def Reaches (m : Draw σ α) (a : α) : Prop :=
  ∃ words : List UInt32, ∀ s s', Gives words s s' → m.run s = (.ok a, s')

theorem gives_append {words words' : List UInt32} {s s' : σ} :
    Gives (words ++ words') s s' ↔ ∃ s₁, Gives words s s₁ ∧ Gives words' s₁ s' := by
  induction words generalizing s with
  | nil =>
    constructor
    · intro h
      exact ⟨s, rfl, h⟩
    · rintro ⟨s₁, hs, h⟩
      cases hs
      exact h
  | cons word words ih =>
    rw [List.cons_append, Gives, ih]
    constructor
    · rintro ⟨hword, s₁, h, h'⟩
      exact ⟨s₁, ⟨hword, h⟩, h'⟩
    · rintro ⟨s₁, ⟨hword, h⟩, h'⟩
      exact ⟨hword, s₁, h, h'⟩

/-- A tape gives the words that stand on it from its position on. -/
theorem gives_tape {words : List UInt32} {t t' : Tape} :
    Gives words t t' ↔ (∀ i (h : i < words.length), t.words (t.position + i) = words[i]) ∧
      t' = { t with position := t.position + words.length } := by
  induction words generalizing t with
  | nil =>
    constructor
    · intro h
      cases h
      exact ⟨fun i h => absurd h (Nat.not_lt_zero i), rfl⟩
    · rintro ⟨-, rfl⟩
      rfl
  | cons word words ih =>
    rw [Gives, ih]
    constructor
    · rintro ⟨hword, hwords, rfl⟩
      refine ⟨?_, ?_⟩
      · rintro (_ | i) h
        · exact hword
        · have hi := hwords i (Nat.lt_of_succ_lt_succ h)
          rw [← Nat.add_assoc, Nat.add_right_comm]
          exact hi
      · rw [List.length_cons, ← Nat.add_assoc, Nat.add_right_comm]
        rfl
    · rintro ⟨hwords, rfl⟩
      refine ⟨hwords 0 (Nat.succ_pos _), fun i h => ?_, ?_⟩
      · have hi := hwords (i + 1) (Nat.succ_lt_succ h)
        rw [← Nat.add_assoc, Nat.add_right_comm] at hi
        exact hi
      · rw [List.length_cons, ← Nat.add_assoc, Nat.add_right_comm]
        rfl

/-- Some tape gives any words first. -/
theorem exists_gives (words : List UInt32) : ∃ t t' : Tape, Gives words t t' := by
  refine ⟨⟨fun i => words.getD i 0, 0⟩, _, gives_tape.2 ⟨fun i hi => ?_, rfl⟩⟩
  show words.getD (0 + i) 0 = words[i]
  rw [Nat.zero_add, List.getD_eq_getElem?_getD, List.getElem?_eq_getElem hi, Option.getD_some]

/-- What holds of every value that is drawn from a tape holds of those that are reached. -/
theorem Reaches.holds {m : Draw Tape α} {a : α} {P : α → Prop} {E : DrawError → Prop} (ha : m.Reaches a)
    (h : m.Ends P E) : P a := by
  obtain ⟨words, hrun⟩ := ha
  obtain ⟨t, t', hgives⟩ := exists_gives words
  exact h.of_ok (hrun t t' hgives)

/-! ## Draws that are put together -/

variable {m : Draw σ α} {a : α} {b : β}

theorem reaches_pure (a : α) : (pure a : Draw σ α).Reaches a := by
  refine ⟨[], fun s s' h => ?_⟩
  cases h
  rfl

theorem Reaches.bind {f : α → Draw σ β} (hm : m.Reaches a) (hf : (f a).Reaches b) : (m >>= f).Reaches b := by
  obtain ⟨words, hm⟩ := hm
  obtain ⟨words', hf⟩ := hf
  refine ⟨words ++ words', fun s s' h => ?_⟩
  obtain ⟨s₁, h₁, h₂⟩ := gives_append.1 h
  rw [run_bind, hm s s₁ h₁]
  exact hf s₁ s' h₂

theorem Reaches.map {f : α → β} (hm : m.Reaches a) (hb : f a = b) : (m >>= fun a => pure (f a)).Reaches b := by
  subst hb
  exact hm.bind (reaches_pure _)

theorem reaches_replicate : ∀ {l : List α}, (∀ a ∈ l, m.Reaches a) → (replicate l.length m).Reaches l
  | [], _ => reaches_pure []
  | a :: l, h => by
    rw [List.length_cons, replicate_succ]
    have hl : (replicate l.length m).Reaches l := reaches_replicate fun b hb => h b (List.mem_cons_of_mem a hb)
    exact (h a List.mem_cons_self).bind (hl.map rfl)

/-- A list that can be addressed is reached if its values are. -/
theorem reaches_list {bytes : Nat} {l : List α} (hholds : Memory.holds bytes l.length = true)
    (h : ∀ a ∈ l, m.Reaches a) : (list bytes l.length m).Reaches l := by
  rw [list, if_pos hholds]
  exact reaches_replicate h

/-! ## Words -/

theorem reaches_word32 (w : UInt32) : (word32 : Draw σ UInt32).Reaches w := by
  refine ⟨[w], fun s s' h => ?_⟩
  obtain ⟨hword, hs⟩ := h
  cases hs
  rw [← hword]
  rfl

/-- A word of 64 bits is put together from its halves. -/
theorem or_halves (w : UInt64) : w.toUInt32.toUInt64 ||| ((w >>> 32).toUInt32.toUInt64 <<< 32) = w := by
  have hlt := w.toNat_lt
  have hlow : w.toNat % 2 ^ 32 < 2 ^ 32 := Nat.mod_lt _ (by decide)
  have hor := Nat.two_pow_add_eq_or_of_lt hlow (w.toNat / 2 ^ 32)
  apply UInt64.toNat_inj.1
  simp only [UInt64.toNat_or, UInt64.toNat_shiftLeft, UInt64.toNat_shiftRight, UInt32.toNat_toUInt64,
    UInt64.toNat_toUInt32, UInt64.toNat_ofNat, Nat.shiftLeft_eq, Nat.shiftRight_eq_div_pow, Nat.reducePow,
    Nat.reduceMod] at hor ⊢
  have hhigh : w.toNat / 4294967296 < 4294967296 := by omega
  have hshifted : w.toNat / 4294967296 * 4294967296 < 18446744073709551616 := by omega
  rw [Nat.mod_eq_of_lt hhigh, Nat.mod_eq_of_lt hshifted, Nat.or_comm, Nat.mul_comm, ← hor]
  omega

theorem reaches_word64 (w : UInt64) : (word64 : Draw σ UInt64).Reaches w := by
  refine (reaches_word32 w.toUInt32).bind ((reaches_word32 (w >>> 32).toUInt32).map ?_)
  exact or_halves w

theorem reaches_word {width : Width} {n : Nat} (h : n < width.modulus) : (word width : Draw σ Nat).Reaches n := by
  cases width with
  | narrow => exact (reaches_word32 (UInt32.ofNat n)).map (UInt32.toNat_ofNat_of_lt' h)
  | wide => exact (reaches_word64 (UInt64.ofNat n)).map (UInt64.toNat_ofNat_of_lt' h)

/-! ## Integers -/

/-- A number below the range is the high half of a product that leaves little below it. -/
theorem exists_word {k range modulus : Nat} (hk : k < range) (hr : range ≤ modulus) :
    ∃ word < modulus, word * range / modulus = k ∧ word * range % modulus < range := by
  -- the first multiple of the range from `k` times the modulus on
  obtain ⟨word, gap, hgap, hword⟩ : ∃ word gap, gap < range ∧ word * range = modulus * k + gap := by
    have hsplit := Nat.div_add_mod (modulus * k + (range - 1)) range
    have hrest := Nat.mod_lt (modulus * k + (range - 1)) (show 0 < range by omega)
    refine ⟨(modulus * k + (range - 1)) / range, range - 1 - (modulus * k + (range - 1)) % range, by omega, ?_⟩
    rw [Nat.mul_comm]
    omega
  refine ⟨word, ?_, ?_, ?_⟩
  · refine Nat.lt_of_not_ge fun hge => ?_
    have hall : modulus * range ≤ word * range := Nat.mul_le_mul_right range (by omega)
    have hupper : modulus * k + modulus ≤ modulus * range := by
      rw [← Nat.mul_succ]
      exact Nat.mul_le_mul_left modulus hk
    omega
  · rw [hword, Nat.mul_add_div (by omega), Nat.div_eq_of_lt (by omega), Nat.add_zero]
  · rw [hword, Nat.mul_add_mod, Nat.mod_eq_of_lt (by omega)]
    exact hgap

theorem reaches_below {width : Width} {k range : Nat} (hk : k < range) (hr : range ≤ width.modulus) :
    (below width range : Draw σ Nat).Reaches k := by
  obtain ⟨word, hlt, hhigh, hlow⟩ := exists_word hk hr
  refine (reaches_word hlt).bind ?_
  simp only [hhigh]
  split
  · -- a second word of zero brings no carry
    refine (reaches_word width.modulus_pos).bind ?_
    rw [Nat.zero_mul, Nat.zero_div, Nat.add_zero, if_neg (by omega)]
    exact reaches_pure k
  · exact reaches_pure k

theorem reaches_integer {width : Width} {low high n : Int} (hlow : low ≤ n) (hhigh : n ≤ high)
    (hfit : high - low + 1 ≤ width.modulus) : (integer width low high : Draw σ Int).Reaches n := by
  have hM := width.modulus_pos
  unfold integer
  rw [if_neg (by omega)]
  simp only
  rcases Int.lt_or_eq_of_le hfit with hlt | heq
  · -- the range is smaller than the width
    rw [Int.emod_eq_of_lt (by omega) hlt, if_neg (by omega)]
    refine (reaches_below (k := (n - low).toNat) (by omega) (by omega)).map ?_
    omega
  · -- the range takes up the whole width: a word agrees with the integer modulo the width
    have hnonneg := Int.emod_nonneg n (b := width.modulus) (by omega)
    have hbelow := Int.emod_lt_of_pos n (b := width.modulus) (by omega)
    rw [heq, Int.emod_self, Int.toNat_zero, if_pos rfl]
    refine (reaches_word (n := (n % width.modulus).toNat) (by omega)).map ?_
    rw [Int.toNat_of_nonneg hnonneg, Int.emod_sub_emod, Int.emod_eq_of_lt (by omega) (by omega)]
    omega

theorem reaches_size {low high n : Nat} (hlow : low ≤ n) (hhigh : n ≤ high) (hfit : high < UInt64.size) :
    (size low high : Draw σ Nat).Reaches n := by
  have hwidth := Width.succ_le_modulus_forSize hfit
  exact (reaches_integer (n := n) (by omega) (by omega) (by omega)).map (Int.toNat_natCast n)

/-! ## Choices and letters -/

theorem reaches_choose? {values : List α} (ha : a ∈ values) (hlen : values.length ≤ UInt64.size) :
    (choose? values : Draw σ (Option α)).Reaches (some a) := by
  obtain ⟨i, hi, rfl⟩ := List.getElem_of_mem ha
  unfold choose?
  rw [if_neg (by simpa using List.ne_nil_of_mem ha)]
  exact (reaches_size (Nat.zero_le i) (by omega) (by omega)).map (List.getElem?_eq_getElem hi)

theorem reaches_letter {alphabet : List Char} {c : Char} (hc : c ∈ alphabet) (hlen : alphabet.length ≤ UInt64.size) :
    (letter alphabet : Draw σ Char).Reaches c := by
  obtain ⟨i, hi, rfl⟩ := List.getElem_of_mem hc
  refine (reaches_size (Nat.zero_le i) (by omega) (by omega)).map ?_
  rw [List.getD_eq_getElem?_getD, List.getElem?_eq_getElem hi, Option.getD_some]

/-- The alphabet has all lowercase letters. -/
theorem mem_of_isLower {c : Char} (h : c.isLower = true) : c ∈ lowercaseLetters := by
  have hall : ∀ n < 26, Char.ofNat (97 + n) ∈ lowercaseLetters := by decide
  obtain ⟨hfrom, hto⟩ := Bool.and_eq_true_iff.1 h
  have hlow : 97 ≤ c.toNat := UInt32.le_iff_toNat_le.1 (of_decide_eq_true hfrom)
  have hhigh : c.toNat ≤ 122 := UInt32.le_iff_toNat_le.1 (of_decide_eq_true hto)
  have hmem := hall (c.toNat - 97) (by omega)
  rwa [show 97 + (c.toNat - 97) = c.toNat by omega, Char.ofNat_toNat] at hmem

theorem reaches_lowercase {cs : List Char} (hholds : Memory.holds letterBytes cs.length = true)
    (h : ∀ c ∈ cs, c.isLower = true) : (lowercase cs.length : Draw σ (List Char)).Reaches cs :=
  reaches_list hholds fun c hc => reaches_letter (mem_of_isLower (h c hc)) (by decide)

end Fixtures.Draw
