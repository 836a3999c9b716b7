/-
Random texts have the length that was asked for and the letters of their alphabet. A text of letters
fails only where it is too long to be addressed; a word of a list and an identifier never fail.
-/
import Fixtures.Proofs.Draw.Uniform
import Fixtures.Random.Text

namespace Fixtures

/-- An uppercase letter, and behind it lowercase letters in a number between two bounds. -/
def Capitalized (least most : Nat) (cs : List Char) : Prop :=
  ∃ first rest, cs = first :: rest ∧ first.isUpper = true ∧ least ≤ rest.length ∧ rest.length ≤ most ∧
    ∀ c ∈ rest, c.isLower = true

namespace Draw

variable {σ : Type} [WordSource σ] {E : DrawError → Prop}

/-! ## Letters -/

theorem ends_letter {alphabet : List Char} (hne : alphabet ≠ []) (hlen : alphabet.length ≤ UInt64.size) :
    (letter alphabet : Draw σ Char).Ends (· ∈ alphabet) E := by
  have hpos : 0 < alphabet.length := List.length_pos_iff.2 hne
  refine (ends_size (Nat.zero_le _) (by omega)).map fun i hi => ?_
  have hi : i < alphabet.length := by omega
  rw [List.getD_eq_getElem?_getD, List.getElem?_eq_getElem hi]
  exact List.getElem_mem hi

theorem isLower_of_mem {c : Char} (h : c ∈ lowercaseLetters) : c.isLower = true := by
  have hall : lowercaseLetters.all Char.isLower = true := by decide
  exact List.all_eq_true.1 hall c h

theorem isUpper_of_mem {c : Char} (h : c ∈ uppercaseLetters) : c.isUpper = true := by
  have hall : uppercaseLetters.all Char.isUpper = true := by decide
  exact List.all_eq_true.1 hall c h

theorem ends_lowercase {n : Nat} (hE : Memory.holds letterBytes n = false → E .tooLarge) :
    (lowercase n : Draw σ (List Char)).Ends (fun cs => cs.length = n ∧ ∀ c ∈ cs, c.isLower = true) E :=
  ((ends_letter (by decide) (by decide)).list hE).mono
    (fun _ hcs => ⟨hcs.1, fun c hc => isLower_of_mem (hcs.2 c hc)⟩) fun _ he => he

theorem ends_uppercase {n : Nat} (hE : Memory.holds letterBytes n = false → E .tooLarge) :
    (uppercase n : Draw σ (List Char)).Ends (fun cs => cs.length = n ∧ ∀ c ∈ cs, c.isUpper = true) E :=
  ((ends_letter (by decide) (by decide)).list hE).mono
    (fun _ hcs => ⟨hcs.1, fun c hc => isUpper_of_mem (hcs.2 c hc)⟩) fun _ he => he

/-- A text that is short enough never fails. -/
theorem letters_fit {n : Nat} (hn : n ≤ Memory.maxBytes) : Memory.holds letterBytes n = false → E .tooLarge := by
  intro h
  rw [Memory.holds, letterBytes, Nat.one_mul, decide_eq_false_iff_not] at h
  exact absurd hn h

/-! ## Words and identifiers -/

theorem ends_pick {values : List String} (hne : values ≠ []) (hlen : values.length ≤ UInt64.size) :
    (pick values : Draw σ String).Ends (· ∈ values) E := by
  refine (ends_choose? hne hlen).map fun choice hchoice => ?_
  obtain ⟨v, hv, rfl⟩ := hchoice
  exact hv

theorem ends_uuid :
    (uuid : Draw σ (List Char)).Ends (fun id => ∃ bytes, bytes.length = 16 ∧ id = uuidText bytes) E := by
  have hbyte : (byte : Draw σ UInt8).Ends (fun _ => True) E := ends_word32.map fun _ _ => trivial
  exact (hbyte.replicate 16).map fun bytes hbytes => ⟨bytes, hbytes.1, rfl⟩

end Draw

end Fixtures
