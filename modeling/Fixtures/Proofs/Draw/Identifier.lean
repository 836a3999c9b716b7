/-
Identifiers of version four. The text of one is five groups of lowercase hexadecimal digits joined by hyphens. They
spell sixteen octets, which are the low bytes of the sixteen words that were taken, but for six bits that tell the
version and the variant.
-/
import Fixtures.Proofs.Draw.Reach

namespace Fixtures

/-! ## Octets -/

/-- The value of a lowercase hexadecimal digit. -/
def lowerHexValue? (c : Char) : Option Nat := "0123456789abcdef".toList.idxOf? c

/-- The octets that pairs of lowercase hexadecimal digits spell, high half first. -/
def octets? : List Char → Option (List UInt8)
  | [] => some []
  | [_] => none
  | high :: low :: rest => do
    let high ← lowerHexValue? high
    let low ← lowerHexValue? low
    let octets ← octets? rest
    return .ofNat (16 * high + low) :: octets

theorem lowerHexValue?_digit {n : Nat} (h : n < 16) :
    lowerHexValue? ("0123456789abcdef".toList.getD n '0') = some n := by
  have hall : ∀ n < 16, lowerHexValue? ("0123456789abcdef".toList.getD n '0') = some n := by decide
  exact hall n h

theorem octets?_hexByte (bytes : List UInt8) : octets? (bytes.flatMap hexByte) = some bytes := by
  induction bytes with
  | nil => rfl
  | cons b bytes ih =>
    have hlt : b.toNat < 256 := b.toNat_lt
    have hhigh : lowerHexValue? ("0123456789abcdef".toList.getD (b.toNat / 16) '0') = some (b.toNat / 16) :=
      lowerHexValue?_digit (by omega)
    have hlow : lowerHexValue? ("0123456789abcdef".toList.getD (b.toNat % 16) '0') = some (b.toNat % 16) :=
      lowerHexValue?_digit (by omega)
    show octets? (_ :: _ :: bytes.flatMap hexByte) = _
    rw [octets?, hhigh, hlow, ih]
    show some (UInt8.ofNat (16 * (b.toNat / 16) + b.toNat % 16) :: bytes) = _
    rw [Nat.div_add_mod, UInt8.ofNat_toNat]

theorem length_flatMap_hexByte (bytes : List UInt8) : (bytes.flatMap hexByte).length = 2 * bytes.length := by
  rw [List.length_flatMap, show (fun b => (hexByte b).length) = fun _ => 2 from rfl, List.map_const', List.sum_replicate_nat,
    Nat.mul_comm]

/-! ## Texts -/

/-- Groups of 8, 4, 4, 4 and 12 lowercase hexadecimal digits joined by hyphens, whose digits spell some octets. -/
def IdentifierText (octets : List UInt8) (text : List Char) : Prop :=
  ∃ groups : List (List Char), text = ['-'].intercalate groups ∧ groups.map List.length = [8, 4, 4, 4, 12] ∧
    octets? groups.flatten = some octets

/-- Sixteen octets that have the version four in the high half of octet 6, and the variant in the two highest
bits of octet 8, and the bits of some bytes in all other places. -/
structure VersionFour (bytes octets : List UInt8) : Prop where
  length : octets.length = 16
  version : (octets.getD 6 0).toNat >>> 4 = 4
  variant : (octets.getD 8 0).toNat >>> 6 = 2
  bits : ∀ i bit, (i = 6 → bit < 4) → (i = 8 → bit < 6) →
    (octets.getD i 0).toNat.testBit bit = (bytes.getD i 0).toNat.testBit bit

/-- The octets of the identifier that is made from some bytes. -/
def versionFour (bytes : List UInt8) : List UInt8 :=
  (bytes.modify 6 fun b => (b &&& 0x0f) ||| 0x40).modify 8 fun b => (b &&& 0x3f) ||| 0x80

theorem getD_versionFour {bytes : List UInt8} (h : bytes.length = 16) (i : Nat) :
    (versionFour bytes).getD i 0 =
      if i = 6 then (bytes.getD 6 0 &&& 0x0f) ||| 0x40
      else if i = 8 then (bytes.getD 8 0 &&& 0x3f) ||| 0x80
      else bytes.getD i 0 := by
  unfold versionFour
  simp only [List.getD_eq_getElem?_getD, List.getElem?_modify]
  by_cases hsix : i = 6
  · subst hsix
    simp [h]
  by_cases height : i = 8
  · subst height
    simp [h]
  · simp [hsix, height, Ne.symm hsix, Ne.symm height]

theorem testBit_stamp {mask mark : UInt8} (b : UInt8) {bit : Nat} (hmask : mask.toNat.testBit bit = true)
    (hmark : mark.toNat.testBit bit = false) : ((b &&& mask) ||| mark).toNat.testBit bit = b.toNat.testBit bit := by
  rw [UInt8.toNat_or, UInt8.toNat_and, Nat.testBit_or, Nat.testBit_and, hmask, hmark, Bool.and_true, Bool.or_false]

theorem versionFour_spec {bytes : List UInt8} (h : bytes.length = 16) : VersionFour bytes (versionFour bytes) := by
  refine ⟨?_, ?_, ?_, fun i bit hsix height => ?_⟩
  · rw [versionFour, List.length_modify, List.length_modify, h]
  · rw [getD_versionFour h, if_pos rfl]
    simp [Nat.shiftRight_or_distrib, Nat.shiftRight_and_distrib]
  · rw [getD_versionFour h, if_neg (by decide), if_pos rfl]
    simp [Nat.shiftRight_or_distrib, Nat.shiftRight_and_distrib]
  · have hversion : ∀ bit < 4, (0x0f : UInt8).toNat.testBit bit = true ∧ (0x40 : UInt8).toNat.testBit bit = false := by
      decide
    have hvariant : ∀ bit < 6, (0x3f : UInt8).toNat.testBit bit = true ∧ (0x80 : UInt8).toNat.testBit bit = false := by
      decide
    rw [getD_versionFour h]
    split
    · rename_i hi
      subst hi
      exact testBit_stamp _ (hversion bit (hsix rfl)).1 (hversion bit (hsix rfl)).2
    split
    · rename_i hi
      subst hi
      exact testBit_stamp _ (hvariant bit (height rfl)).1 (hvariant bit (height rfl)).2
    · rfl

/-- Octets as they are grouped in a text. -/
def octetGroups (octets : List UInt8) : List (List UInt8) :=
  [octets.take 4, (octets.drop 4).take 2, (octets.drop 6).take 2, (octets.drop 8).take 2, octets.drop 10]

theorem flatten_octetGroups (octets : List UInt8) : (octetGroups octets).flatten = octets := by
  have happend (m n : Nat) : octets.take m ++ (octets.drop m).take n = octets.take (m + n) := List.take_add.symm
  simp only [octetGroups, List.flatten_cons, List.flatten_nil, List.append_nil, ← List.append_assoc, happend,
    List.take_append_drop]

theorem uuidText_eq (bytes : List UInt8) :
    uuidText bytes = ['-'].intercalate ((octetGroups (versionFour bytes)).map (·.flatMap hexByte)) := by
  simp [uuidText, octetGroups, versionFour, List.intercalate]

theorem identifierText_uuidText {bytes : List UInt8} (h : bytes.length = 16) :
    IdentifierText (versionFour bytes) (uuidText bytes) := by
  have hlength := (versionFour_spec h).length
  refine ⟨_, uuidText_eq bytes, ?_, ?_⟩
  · have hgroups : (octetGroups (versionFour bytes)).map List.length = [4, 2, 2, 2, 6] := by
      simp [octetGroups, hlength]
    rw [List.map_map, ← show [4, 2, 2, 2, 6].map (2 * ·) = [8, 4, 4, 4, 12] from rfl, ← hgroups, List.map_map]
    simp only [Function.comp_def, length_flatMap_hexByte]
  · have hdigits : ((octetGroups (versionFour bytes)).map (·.flatMap hexByte)).flatten =
        (octetGroups (versionFour bytes)).flatten.flatMap hexByte := by
      rw [← List.flatMap_def, ← List.flatMap_id, List.flatMap_assoc]
      rfl
    rw [hdigits, flatten_octetGroups, octets?_hexByte]

example : uuidText (List.replicate 16 0xff) = "ffffffff-ffff-4fff-bfff-ffffffffffff".toList := by rfl

namespace Draw

variable {σ : Type} [WordSource σ]

/-! ## Draws -/

theorem run_byte (s : σ) :
    (byte : Draw σ UInt8).run s = (.ok (WordSource.next s).1.toUInt8, (WordSource.next s).2) := rfl

/-- As many words are taken as bytes are drawn, and each byte is the low one of its word. -/
theorem run_replicate_byte (n : Nat) (s : σ) : ∃ words s', words.length = n ∧ Gives words s s' ∧
    (replicate n byte).run s = (.ok (words.map UInt32.toUInt8), s') := by
  induction n generalizing s with
  | zero => exact ⟨[], s, rfl, rfl, rfl⟩
  | succ n ih =>
    obtain ⟨words, s', hlength, hgives, hrun⟩ := ih (WordSource.next s).2
    refine ⟨(WordSource.next s).1 :: words, s', by rw [List.length_cons, hlength], ⟨rfl, hgives⟩, ?_⟩
    rw [replicate_succ, run_bind, run_byte]
    simp only
    rw [run_bind, hrun]
    rfl

theorem run_uuid (s : σ) : ∃ words s', words.length = 16 ∧ Gives words s s' ∧
    (uuid : Draw σ (List Char)).run s = (.ok (uuidText (words.map UInt32.toUInt8)), s') := by
  obtain ⟨words, s', hlength, hgives, hrun⟩ := run_replicate_byte 16 s
  refine ⟨words, s', hlength, hgives, ?_⟩
  rw [uuid, run_bind, hrun]
  rfl

end Draw

end Fixtures
