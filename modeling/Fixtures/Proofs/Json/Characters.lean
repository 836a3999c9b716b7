/-
The characters of documents. On one line, the text of a document holds no control character, whatever stands
in its strings: they are escaped, and nothing else in a document is one.
-/
import Fixtures.Proofs.Json.Reading

namespace Fixtures

/-! ## Numerals -/

theorem le_of_mem_word {word : List Char} (hword : (word.all fun c => 32 ≤ c.toNat) = true) {c : Char} (h : c ∈ word) :
    32 ≤ c.toNat :=
  of_decide_eq_true (List.all_eq_true.1 hword c h)

theorem le_of_isDigit {c : Char} (h : c.isDigit = true) : 32 ≤ c.toNat := by
  have hle := (Bool.and_eq_true_iff.1 h).1
  have hnat : 48 ≤ c.toNat := by simpa [UInt32.le_iff_toNat_le] using hle
  omega

theorem Numeral.mem_exponentText {plus : Bool} {e : Int} {c : Char} (h : c ∈ exponentText plus e) :
    c.isDigit = true ∨ c ∈ ['-', '+', '.', 'e'] := by
  rcases List.mem_cons.1 h with rfl | h
  · exact .inr (by decide)
  split at h
  · rcases List.mem_cons.1 h with rfl | h
    · exact .inr (by decide)
    · exact .inl (isDigit_of_mem_natDigits h)
  split at h
  · rcases List.mem_cons.1 h with rfl | h
    · exact .inr (by decide)
    · exact .inl (isDigit_of_mem_natDigits h)
  · exact .inl (isDigit_of_mem_natDigits h)

/-- A numeral is written with digits, signs, a point and the mark of the exponent. -/
theorem Numeral.mem_text {n : Numeral} (hn : n.WellFormed) {plus : Bool} {c : Char} (h : c ∈ n.text plus) :
    c.isDigit = true ∨ c ∈ ['-', '+', '.', 'e'] := by
  unfold text at h
  rcases List.mem_append.1 h with h | h
  · rcases List.mem_append.1 h with h | h
    · rcases List.mem_append.1 h with h | h
      · split at h
        · rw [List.mem_singleton.1 h]
          exact .inr (by decide)
        · cases h
      · exact .inl (hn.isDigit_whole c h)
    · split at h
      · cases h
      · rcases List.mem_cons.1 h with rfl | h
        · exact .inr (by decide)
        · exact .inl (hn.isDigit_fraction c h)
  · cases he : n.exponent with
    | none =>
      rw [he] at h
      cases h
    | some e =>
      rw [he] at h
      exact mem_exponentText h

theorem Numeral.le_of_mem_text {n : Numeral} (hn : n.WellFormed) {plus : Bool} {c : Char} (h : c ∈ n.text plus) :
    32 ≤ c.toNat := by
  rcases mem_text hn h with hdigit | hmark
  · exact le_of_isDigit hdigit
  · exact le_of_mem_word (by decide : (['-', '+', '.', 'e'].all fun c => 32 ≤ c.toNat) = true) hmark

namespace Json

/-! ## Strings -/

theorem le_of_mem_unicodeEscape {c d : Char} (hc : c.toNat < 32) (h : d ∈ unicodeEscape c) : 32 ≤ d.toNat := by
  have hall : ∀ n < 32, (['\\', 'u', '0', '0', "0123456789abcdef".toList.getD (n / 16) '0',
      "0123456789abcdef".toList.getD (n % 16) '0'].all fun d => 32 ≤ d.toNat) = true := by decide
  exact le_of_mem_word (hall c.toNat hc) h

theorem le_of_shortEscape? {e c : Char} (h : shortEscape? e = some c) : 32 ≤ e.toNat := by
  unfold shortEscape? at h
  split at h
  · rename_i he
    rcases he with rfl | rfl | rfl <;> decide
  repeat' (split at h; · subst e; decide)
  cases h

theorem le_of_mem_escaped {c d : Char} (h : d ∈ escaped c) : 32 ≤ d.toNat := by
  rcases escaped_cases c with ⟨e, hescaped, hshort, -⟩ | ⟨hcontrol, hescaped⟩ | ⟨-, -, hprint, hescaped⟩
  · rw [hescaped] at h
    rcases List.mem_cons.1 h with rfl | h
    · decide
    · rw [List.mem_singleton.1 h]
      exact le_of_shortEscape? hshort
  · rw [hescaped] at h
    exact le_of_mem_unicodeEscape hcontrol h
  · rw [hescaped, List.mem_singleton] at h
    rwa [h]

theorem le_of_mem_quoted {s : String} {d : Char} (h : d ∈ quoted s) : 32 ≤ d.toNat := by
  rcases List.mem_cons.1 h with rfl | h
  · decide
  rcases List.mem_append.1 h with h | h
  · obtain ⟨c, -, hd⟩ := List.mem_flatMap.1 h
    exact le_of_mem_escaped hd
  · rw [List.mem_singleton.1 h]
    decide

/-! ## Documents -/

theorem le_of_mem_start {level : Nat} {first : Bool} {d : Char} (h : d ∈ Layout.compact.start first level) :
    32 ≤ d.toNat := by
  cases first with
  | true => cases h
  | false =>
    rw [List.mem_singleton.1 h]
    decide

mutual

/-- On one line, a document is written without control characters. -/
theorem le_of_mem_textAt (level : Nat) {d : Char} :
    ∀ {j : Json}, j.WellFormed → d ∈ textAt .compact level j → 32 ≤ d.toNat
  | null, _, h => le_of_mem_word (by decide : ("null".toList.all fun c => 32 ≤ c.toNat) = true) h
  | bool true, _, h => le_of_mem_word (by decide : ("true".toList.all fun c => 32 ≤ c.toNat) = true) h
  | bool false, _, h => le_of_mem_word (by decide : ("false".toList.all fun c => 32 ≤ c.toNat) = true) h
  | number n, hj, h => by
    rw [WellFormed] at hj
    rw [textAt] at h
    exact Numeral.le_of_mem_text hj h
  | string s, _, h => by
    rw [textAt] at h
    exact le_of_mem_quoted h
  | array items, hj, h => by
    rw [WellFormed] at hj
    simp only [textAt, Layout.gap, ite_self, List.append_nil, List.mem_cons, List.mem_append, List.not_mem_nil,
      or_false] at h
    rcases h with rfl | h | rfl
    · decide
    · exact le_of_mem_itemsText (level + 1) true hj h
    · decide
  | object members, hj, h => by
    rw [WellFormed] at hj
    simp only [textAt, Layout.gap, ite_self, List.append_nil, List.mem_cons, List.mem_append, List.not_mem_nil,
      or_false] at h
    rcases h with rfl | h | rfl
    · decide
    · exact le_of_mem_membersText (level + 1) true hj h
    · decide

theorem le_of_mem_itemsText (level : Nat) (first : Bool) {d : Char} :
    ∀ {items : List Json}, ItemsWellFormed items → d ∈ itemsText .compact level first items → 32 ≤ d.toNat
  | [], _, h => nomatch h
  | item :: rest, hitems, h => by
    rw [ItemsWellFormed] at hitems
    simp only [itemsText, List.mem_append] at h
    rcases h with (h | h) | h
    · exact le_of_mem_start h
    · exact le_of_mem_textAt level hitems.1 h
    · exact le_of_mem_itemsText level false hitems.2 h

theorem le_of_mem_membersText (level : Nat) (first : Bool) {d : Char} :
    ∀ {members : List (String × Json)}, MembersWellFormed members → d ∈ membersText .compact level first members →
      32 ≤ d.toNat
  | [], _, h => nomatch h
  | (name, value) :: rest, hmembers, h => by
    rw [MembersWellFormed] at hmembers
    simp only [membersText, Layout.colon, List.mem_append, List.mem_singleton] at h
    rcases h with (((h | h) | rfl) | h) | h
    · exact le_of_mem_start h
    · exact le_of_mem_quoted h
    · decide
    · exact le_of_mem_textAt level hmembers.1 h
    · exact le_of_mem_membersText level false hmembers.2 h

end

end Json

end Fixtures
