/-
The bytes of texts. A text is got back from its bytes, and a byte below 128 stands for the character of
that number and for nothing else, so control characters can be looked for in the bytes.
-/
import Fixtures.Proofs.Output.Text

namespace Fixtures

theorem encodeText_eq_utf8Encode (cs : List Char) : encodeText cs = cs.utf8Encode := by
  unfold encodeText
  rw [String.toUTF8_eq_toByteArray, String.toByteArray_ofList]

theorem fromUTF8?_encodeText (cs : List Char) : String.fromUTF8? (encodeText cs) = some (String.ofList cs) := by
  have hvalid : (encodeText cs).IsValidUTF8 := by
    rw [encodeText_eq_utf8Encode]
    exact ByteArray.isValidUTF8_utf8Encode
  unfold String.fromUTF8?
  rw [dif_pos hvalid]
  congr 1

theorem encodeText_inj {cs cs' : List Char} : encodeText cs = encodeText cs' ↔ cs = cs' := by
  refine ⟨fun h => ?_, congrArg encodeText⟩
  have hdecoded := fromUTF8?_encodeText cs
  rw [h, fromUTF8?_encodeText] at hdecoded
  exact (String.ofList_injective (Option.some.inj hdecoded)).symm

theorem encodeText_eq_empty {cs : List Char} : encodeText cs = .empty ↔ cs = [] := by
  rw [encodeText_eq_utf8Encode, List.utf8Encode_eq_empty]

theorem readText_encodeText {fs : FileSystem} {p : Path} {cs : List Char} (h : fs.read p = .ok (encodeText cs)) :
    fs.readText p = .ok (String.ofList cs) := by
  unfold FileSystem.readText
  rw [h]
  simp only [fromUTF8?_encodeText]

/-! ## Bytes of a character -/

theorem toList_encodeText (cs : List Char) : (encodeText cs).data.toList = cs.flatMap String.utf8EncodeChar := by
  rw [encodeText_eq_utf8Encode]
  simp [List.utf8Encode]

/-- A character is a byte of its own number, or only bytes from 128 on. -/
theorem utf8EncodeChar_cases (c : Char) :
    c.toNat < 128 ∧ String.utf8EncodeChar c = [.ofNat c.toNat] ∨
      128 ≤ c.toNat ∧ ∀ b ∈ String.utf8EncodeChar c, 128 ≤ b.toNat := by
  unfold String.utf8EncodeChar
  simp only [show c.val.toNat = c.toNat from rfl]
  split
  · exact .inl ⟨by omega, rfl⟩
  · refine .inr ⟨by omega, ?_⟩
    split
    · simp only [List.mem_cons, List.not_mem_nil, or_false]
      rintro b (rfl | rfl) <;> rw [UInt8.toNat_ofNat'] <;> omega
    split
    · simp only [List.mem_cons, List.not_mem_nil, or_false]
      rintro b (rfl | rfl | rfl) <;> rw [UInt8.toNat_ofNat'] <;> omega
    · simp only [List.mem_cons, List.not_mem_nil, or_false]
      rintro b (rfl | rfl | rfl | rfl) <;> rw [UInt8.toNat_ofNat'] <;> omega

/-- The bytes of characters from 32 on are no control characters. -/
theorem le_of_mem_encodeText {cs : List Char} (h : ∀ c ∈ cs, 32 ≤ c.toNat) {b : UInt8}
    (hb : b ∈ (encodeText cs).data.toList) : 32 ≤ b.toNat := by
  rw [toList_encodeText] at hb
  obtain ⟨c, hc, hbc⟩ := List.mem_flatMap.1 hb
  have hle := h c hc
  rcases utf8EncodeChar_cases c with ⟨hsmall, hbytes⟩ | ⟨-, hbytes⟩
  · rw [hbytes, List.mem_singleton] at hbc
    subst hbc
    rw [UInt8.toNat_ofNat']
    omega
  · have := hbytes b hbc
    omega

end Fixtures
