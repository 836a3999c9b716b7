/-
Spacing between the parts of documents. The indented text of a document and its text on one line differ in the
spaces and ends of line outside of strings, and in nothing else: without these the indented text is the one on
one line. So an indented fixture holds the same document, whatever stands in its strings.
-/
import Fixtures.Output.Json
import Fixtures.Proofs.Document.Reading
import Fixtures.Proofs.Json.Nesting
import Fixtures.Proofs.Value.Reading

namespace Fixtures

namespace Json

/-- A text from a place on, without the spaces and ends of line that lie outside of strings. -/
def unspaced (p : Place) : List Char → List Char
  | [] => []
  | c :: cs =>
    if p.quoting = .outside ∧ (c = ' ' ∨ c = '\n') then unspaced (p.next c) cs
    else c :: unspaced (p.next c) cs

theorem unspaced_append (p : Place) (cs ds : List Char) :
    unspaced p (cs ++ ds) = unspaced p cs ++ unspaced (p.after cs) ds := by
  induction cs generalizing p with
  | nil => rfl
  | cons c cs ih =>
    rw [List.cons_append, unspaced, unspaced, Place.after_cons, ih]
    split <;> rfl

theorem Balanced.unspaced_append {cs : List Char} (h : Balanced cs) (k : Nat) (ds : List Char) :
    unspaced ⟨.outside, k⟩ (cs ++ ds) = unspaced ⟨.outside, k⟩ cs ++ unspaced ⟨.outside, k⟩ ds := by
  rw [Json.unspaced_append, h]

/-! ## Parts without spaces -/

/-- A text that holds no space and no end of line stays as it is. -/
theorem unspaced_of_notMem {cs : List Char} (hspace : ' ' ∉ cs) (hline : '\n' ∉ cs) (p : Place) :
    unspaced p cs = cs := by
  induction cs generalizing p with
  | nil => rfl
  | cons c cs ih =>
    rw [List.mem_cons, not_or] at hspace hline
    rw [unspaced, if_neg, ih hspace.2 hline.2]
    rintro ⟨-, rfl | rfl⟩
    · exact hspace.1 rfl
    · exact hline.1 rfl

/-- Within a string nothing is left out. -/
theorem unspaced_escaped (c : Char) (k : Nat) : unspaced ⟨.within, k⟩ (escaped c) = escaped c := by
  rcases escaped_cases c with ⟨e, hescaped, -, -⟩ | ⟨hcontrol, hescaped⟩ | ⟨-, -, -, hescaped⟩
  · rw [hescaped]
    rfl
  · have hhigh := next_within_hexDigit (n := c.toNat / 16) (by omega) k
    rw [hescaped, unicodeEscape]
    show '\\' :: 'u' :: '0' :: '0' :: _ :: unspaced (Place.next ⟨.within, k⟩ _) [_] = _
    rw [hhigh]
    rfl
  · rw [hescaped]
    simp [unspaced]

theorem unspaced_content (cs : List Char) (k : Nat) :
    unspaced ⟨.within, k⟩ (cs.flatMap escaped) = cs.flatMap escaped := by
  induction cs with
  | nil => rfl
  | cons c cs ih => rw [List.flatMap_cons, unspaced_append, unspaced_escaped, after_escaped, ih]

theorem unspaced_quoted (s : String) (k : Nat) : unspaced ⟨.outside, k⟩ (quoted s) = quoted s := by
  have hopen : Place.next ⟨.outside, k⟩ '"' = ⟨.within, k⟩ := rfl
  rw [quoted, unspaced, if_neg (by simp), hopen, unspaced_append, unspaced_content, after_content]
  rfl

theorem unspaced_numeral {n : Numeral} (hn : n.WellFormed) (plus : Bool) (p : Place) :
    unspaced p (n.text plus) = n.text plus := by
  refine unspaced_of_notMem (fun h => ?_) (fun h => ?_) p
  · rcases Numeral.mem_text hn h with hdigit | hmark
    · cases hdigit
    · exact absurd hmark (by decide)
  · rcases Numeral.mem_text hn h with hdigit | hmark
    · cases hdigit
    · exact absurd hmark (by decide)

/-! ## Gaps -/

/-- A gap of an indented text is left out as a whole. -/
theorem unspaced_gap (layout : Layout) (level k : Nat) : unspaced ⟨.outside, k⟩ (layout.gap level) = [] := by
  have hspaces : ∀ n, unspaced ⟨.outside, k⟩ (List.replicate n ' ') = [] := by
    intro n
    induction n with
    | zero => rfl
    | succ n ih => rw [List.replicate_succ, unspaced, if_pos ⟨rfl, .inl rfl⟩, Place.next_of_not_isMark rfl, ih]
  cases layout with
  | compact => rfl
  | indented width =>
    rw [Layout.gap, unspaced, if_pos ⟨rfl, .inr rfl⟩, Place.next_of_not_isMark rfl, hspaces]

theorem unspaced_start (layout : Layout) (first : Bool) (level k : Nat) :
    unspaced ⟨.outside, k⟩ (layout.start first level) = Layout.compact.start first level := by
  rw [Layout.start, (balanced_comma first).unspaced_append, unspaced_gap]
  cases first <;> rfl

theorem unspaced_stop (layout : Layout) (empty : Bool) (level k : Nat) :
    unspaced ⟨.outside, k⟩ (if empty then [] else layout.gap level) =
      if empty then [] else Layout.compact.gap level := by
  cases empty with
  | true => rfl
  | false => exact unspaced_gap layout level k

theorem unspaced_colon (layout : Layout) (k : Nat) :
    unspaced ⟨.outside, k⟩ layout.colon = Layout.compact.colon := by
  cases layout <;> rfl

/-! ## Documents -/

theorem unspaced_container {cs ds : List Char} {first last : Char} (hcs : Balanced cs)
    (hfirst : first = '[' ∨ first = '{') (hlast : last = ']' ∨ last = '}')
    (h : ∀ k, unspaced ⟨.outside, k⟩ cs = ds) (k : Nat) :
    unspaced ⟨.outside, k⟩ (first :: (cs ++ [last])) = first :: (ds ++ [last]) := by
  have hend : unspaced ⟨.outside, k + 1⟩ [last] = [last] := by
    rcases hlast with rfl | rfl <;> rfl
  rw [unspaced, if_neg (by rcases hfirst with rfl | rfl <;> simp), Place.next_open hfirst, hcs.unspaced_append, h, hend]

mutual

/-- Without its spacing the text of a document is the one on one line. -/
theorem unspaced_textAt (layout : Layout) (level k : Nat) :
    ∀ {j : Json}, j.WellFormed → unspaced ⟨.outside, k⟩ (textAt layout level j) = textAt .compact level j
  | null, _ => rfl
  | bool true, _ => rfl
  | bool false, _ => rfl
  | number n, hj => by
    rw [WellFormed] at hj
    rw [textAt, textAt]
    exact unspaced_numeral hj floatStyle.plus _
  | string s, _ => by
    rw [textAt, textAt]
    exact unspaced_quoted s k
  | array items, hj => by
    rw [WellFormed] at hj
    have hitems := balanced_itemsText layout (level + 1) true hj
    rw [textAt, textAt]
    refine unspaced_container (hitems.append (balanced_stop layout _ level)) (.inl rfl) (.inl rfl) (fun k => ?_) k
    rw [hitems.unspaced_append, unspaced_itemsText layout (level + 1) k true hj, unspaced_stop]
  | object members, hj => by
    rw [WellFormed] at hj
    have hmembers := balanced_membersText layout (level + 1) true hj
    rw [textAt, textAt]
    refine unspaced_container (hmembers.append (balanced_stop layout _ level)) (.inr rfl) (.inr rfl) (fun k => ?_) k
    rw [hmembers.unspaced_append, unspaced_membersText layout (level + 1) k true hj, unspaced_stop]

theorem unspaced_itemsText (layout : Layout) (level k : Nat) (first : Bool) :
    ∀ {items : List Json}, ItemsWellFormed items →
      unspaced ⟨.outside, k⟩ (itemsText layout level first items) = itemsText .compact level first items
  | [], _ => rfl
  | item :: rest, hitems => by
    rw [ItemsWellFormed] at hitems
    have hstart := balanced_start layout first level
    have hitem := balanced_textAt layout level hitems.1
    rw [itemsText, itemsText, (hstart.append hitem).unspaced_append, hstart.unspaced_append, unspaced_start,
      unspaced_textAt layout level k hitems.1, unspaced_itemsText layout level k false hitems.2]

theorem unspaced_membersText (layout : Layout) (level k : Nat) (first : Bool) :
    ∀ {members : List (String × Json)}, MembersWellFormed members →
      unspaced ⟨.outside, k⟩ (membersText layout level first members) = membersText .compact level first members
  | [], _ => rfl
  | (name, value) :: rest, hmembers => by
    rw [MembersWellFormed] at hmembers
    have hstart := balanced_start layout first level
    have hname := hstart.append (balanced_quoted name)
    have hcolon := hname.append (balanced_colon layout)
    have hvalue := balanced_textAt layout level hmembers.1
    rw [membersText, membersText, (hcolon.append hvalue).unspaced_append, hcolon.unspaced_append,
      hname.unspaced_append, hstart.unspaced_append, unspaced_start, unspaced_quoted, unspaced_colon,
      unspaced_textAt layout level k hmembers.1, unspaced_membersText layout level k false hmembers.2]

end

theorem unspaced_text {j : Json} (hj : j.WellFormed) (layout : Layout) :
    unspaced .start (j.text layout) = j.text .compact := by
  rw [text_eq, text_eq]
  exact unspaced_textAt layout 0 0 hj

example : unspaced .start "[\n    \"a \\\" b\",\n    []\n]".toList = "[\"a \\\" b\",[]]".toList := by rfl

/-- The texts of values, of mappings and of lists of catalog entries, indented as in the fixtures, are those on
one line but for the spaces and ends of line outside of strings. -/
theorem unspaced_fixtureLayout :
    (∀ v : Value, unspaced .start (v.toJson.text fixtureLayout) = v.toJson.text .compact) ∧
      (∀ m : Mapping, unspaced .start (m.toJson.text fixtureLayout) = m.toJson.text .compact) ∧
      ∀ entries : List CatalogEntry,
        unspaced .start ((Json.array (entries.map CatalogEntry.toJson)).text fixtureLayout) =
          (Json.array (entries.map CatalogEntry.toJson)).text .compact := by
  refine ⟨fun v => ?_, fun m => ?_, fun entries => ?_⟩
  · exact unspaced_text v.wellFormed_toJson fixtureLayout
  · exact unspaced_text m.wellFormed_toJson fixtureLayout
  · exact unspaced_text (CatalogEntry.wellFormed_array entries) fixtureLayout

end Json

end Fixtures
