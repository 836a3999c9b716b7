/-
Bytes shown as text. The bytes of a text are shown as the text itself, and no shown character but the replacement
mark has bytes that were not there. So a path that is a text is displayed as this text and read back from it.
-/
import Fixtures.FileSystem.Path
import Fixtures.Proofs.Text.Bytes

namespace Fixtures

namespace Utf8

/-! ## Characters -/

theorem dropFollowers_sublist : ∀ (bounds : List (UInt8 × UInt8)) (bytes : List UInt8),
    (dropFollowers bounds bytes).Sublist bytes
  | [], _ => .refl _
  | _ :: _, [] => .refl _
  | (low, high) :: bounds, b :: rest => by
    rw [dropFollowers]
    split
    · exact (dropFollowers_sublist bounds rest).cons b
    · exact .refl _

/-- A character that is shown is the replacement mark, or its bytes are among those that are shown. -/
theorem mem_shownWithin : ∀ {fuel : Nat} {bytes : List UInt8} {c : Char}, c ∈ shownWithin fuel bytes →
    c = '\ufffd' ∨ ∀ b ∈ String.utf8EncodeChar c, b ∈ bytes
  | 0, _, _, h => by simp [shownWithin] at h
  | _ + 1, [], _, h => by simp [shownWithin] at h
  | fuel + 1, b :: rest, c, h => by
    rw [shownWithin] at h
    split at h
    · rename_i c' hdecode
      rcases List.mem_cons.1 h with rfl | h
      · obtain ⟨behind, hbytes⟩ := ByteArray.exists_of_utf8DecodeChar?_eq_some hdecode
        have hlist := congrArg (fun bytes : ByteArray => bytes.data.toList) hbytes
        simp only [ByteArray.data_append, Array.toList_append, List.toList_data_toByteArray] at hlist
        exact .inr fun b' hb' => by rw [hlist]; exact List.mem_append_left _ hb'
      · exact (mem_shownWithin h).imp_right fun hc b' hb' => List.mem_of_mem_drop (hc b' hb')
    · rcases List.mem_cons.1 h with rfl | h
      · exact .inl rfl
      · refine (mem_shownWithin h).imp_right fun hc b' hb' => ?_
        exact List.mem_cons_of_mem b ((dropFollowers_sublist _ rest).subset (hc b' hb'))

/-- The bytes of characters are shown as these characters, if there are steps enough. -/
theorem shownWithin_utf8 : ∀ {cs : List Char} {fuel : Nat}, cs.length ≤ fuel →
    shownWithin fuel (cs.flatMap String.utf8EncodeChar) = cs
  | [], fuel, _ => by cases fuel <;> rfl
  | c :: rest, 0, h => by simp at h
  | c :: rest, fuel + 1, h => by
    obtain ⟨b, others, hbytes⟩ := List.exists_cons_of_length_pos
      (show 0 < (String.utf8EncodeChar c).length by rw [String.length_utf8EncodeChar]; exact c.utf8Size_pos)
    have hdecode : ByteArray.utf8DecodeChar?
        ⟨(b :: (others ++ rest.flatMap String.utf8EncodeChar)).toArray⟩ 0 = some c := by
      have happend := ByteArray.utf8DecodeChar?_utf8EncodeChar_append (c := c)
        (b := (rest.flatMap String.utf8EncodeChar).toByteArray)
      have hall : ((b :: others).toByteArray ++ (rest.flatMap String.utf8EncodeChar).toByteArray) =
          ⟨(b :: (others ++ rest.flatMap String.utf8EncodeChar)).toArray⟩ := by
        apply ByteArray.ext
        simp
      rwa [hbytes, hall] at happend
    rw [List.flatMap_cons, hbytes, List.cons_append, shownWithin, hdecode]
    simp only
    rw [← List.cons_append, ← hbytes, ← String.length_utf8EncodeChar, List.drop_left,
      shownWithin_utf8 (Nat.le_of_succ_le_succ h)]

theorem length_le_length_utf8 (cs : List Char) : cs.length ≤ (cs.flatMap String.utf8EncodeChar).length := by
  induction cs with
  | nil => exact Nat.le_refl 0
  | cons c rest ih =>
    have := c.utf8Size_pos
    rw [List.flatMap_cons, List.length_append, String.length_utf8EncodeChar, List.length_cons]
    omega

theorem toList_toUTF8 (s : String) : s.toUTF8.data.toList = s.toList.flatMap String.utf8EncodeChar := by
  rw [← toList_encodeText, encodeText, String.ofList_toList]

/-- A text is shown as itself. -/
theorem shown_utf8 (s : String) : shown s.toUTF8.data.toList = s.toList := by
  rw [shown, toList_toUTF8, shownWithin_utf8 (length_le_length_utf8 _)]

end Utf8

/-! ## Names and paths -/

namespace FileName

theorem display_ofText (s : String) : display (ofText s) = s := by
  rw [display, ofText, Utf8.shown_utf8, String.ofList_toList]

/-- The separator of parts is the slash and no part of another character. -/
theorem separator_mem_ofText {s : String} : Path.separator ∈ ofText s ↔ '/' ∈ s.toList := by
  rw [ofText, Utf8.toList_toUTF8, List.mem_flatMap]
  constructor
  · rintro ⟨c, hc, hseparator⟩
    rcases utf8EncodeChar_cases c with ⟨hsmall, hbytes⟩ | ⟨-, hbytes⟩
    · rw [hbytes, List.mem_singleton] at hseparator
      have hnat := congrArg UInt8.toNat hseparator
      rw [UInt8.toNat_ofNat', Nat.mod_eq_of_lt (by omega)] at hnat
      rwa [show c = '/' from Char.toNat_inj.1 hnat.symm] at hc
    · exact absurd (hbytes _ hseparator) (by decide)
  · exact fun h => ⟨'/', h, by decide⟩

/-- The display of a name brings in no separator. -/
theorem slash_notMem_display {name : FileName} (h : Path.separator ∉ name) : '/' ∉ name.display.toList := by
  rw [display, String.toList_ofList]
  intro hmem
  rcases Utf8.mem_shownWithin hmem with heq | hbytes
  · exact absurd heq (by decide)
  · exact h (hbytes _ (by decide))

end FileName

namespace Path

theorem display_ofText (s : String) : (ofText s).display = s := FileName.display_ofText s

/-- The paths that are texts are those of texts. -/
theorem text?_eq_some_iff {p : Path} {s : String} : p.text? = some s ↔ p = ofText s := by
  constructor
  · intro h
    unfold text? String.fromUTF8? at h
    split at h
    · cases h
      rfl
    · cases h
  · rintro rfl
    have htext := fromUTF8?_encodeText s.toList
    rw [encodeText, String.ofList_toList] at htext
    exact htext

end Path

end Fixtures
