/-
Places in the texts of documents: whether a place lies outside of strings, and how many containers are open
there. Both are found by reading the text from its start, and a string is left again at its closing quote and
nowhere before, whatever it holds. The text of a document closes the strings and containers that it opens.
-/
import Fixtures.Proofs.Json.Characters

namespace Fixtures.Json

/-! ## Places -/

/-- Where a place lies with respect to strings. -/
inductive Quoting where
  | outside
  | within
  /-- Within a string, behind a backslash. -/
  | escaped
  deriving DecidableEq

/-- A place in a text: where it lies with respect to strings, and how many containers are open there. -/
structure Place where
  quoting : Quoting
  opened : Nat
  deriving DecidableEq

namespace Place

/-- The start of a text. -/
def start : Place := ⟨.outside, 0⟩

/-- The place behind a character. -/
def next (p : Place) (c : Char) : Place :=
  match p.quoting with
  | .outside =>
    if c = '"' then { p with quoting := .within }
    else if c = '[' ∨ c = '{' then { p with opened := p.opened + 1 }
    else if c = ']' ∨ c = '}' then { p with opened := p.opened - 1 }
    else p
  | .within =>
    if c = '"' then { p with quoting := .outside }
    else if c = '\\' then { p with quoting := .escaped }
    else p
  | .escaped => { p with quoting := .within }

/-- The place behind a text. -/
def after (p : Place) (cs : List Char) : Place := cs.foldl next p

@[simp] theorem after_nil (p : Place) : p.after [] = p := rfl

@[simp] theorem after_cons (p : Place) (c : Char) (cs : List Char) : p.after (c :: cs) = (p.next c).after cs := rfl

@[simp] theorem after_append (p : Place) (cs ds : List Char) : p.after (cs ++ ds) = (p.after cs).after ds :=
  List.foldl_append

end Place

/-! ## Balanced texts -/

/-- A text that opens and closes strings and containers so that none is left open, and none that was open
before it is closed. -/
def Balanced (cs : List Char) : Prop := ∀ k, Place.after ⟨.outside, k⟩ cs = ⟨.outside, k⟩

theorem balanced_nil : Balanced [] := fun _ => rfl

theorem Balanced.append {cs ds : List Char} (hcs : Balanced cs) (hds : Balanced ds) : Balanced (cs ++ ds) := by
  intro k
  rw [Place.after_append, hcs, hds]

/-- The characters that begin or end a string or container. -/
def isMark (c : Char) : Bool := c ∈ ['"', '[', ']', '{', '}']

theorem Place.next_of_not_isMark {c : Char} (h : isMark c = false) (k : Nat) :
    Place.next ⟨.outside, k⟩ c = ⟨.outside, k⟩ := by
  simp only [isMark, decide_eq_false_iff_not, List.mem_cons, List.not_mem_nil, or_false, not_or] at h
  simp [next, h]

theorem balanced_of_not_isMark {cs : List Char} (h : ∀ c ∈ cs, isMark c = false) : Balanced cs := by
  intro k
  induction cs with
  | nil => rfl
  | cons c cs ih =>
    obtain ⟨hc, hcs⟩ := List.forall_mem_cons.1 h
    rw [Place.after_cons, Place.next_of_not_isMark hc, ih hcs]

theorem Place.next_open {first : Char} (h : first = '[' ∨ first = '{') (k : Nat) :
    Place.next ⟨.outside, k⟩ first = ⟨.outside, k + 1⟩ := by
  rcases h with rfl | rfl <;> rfl

theorem Place.next_close {last : Char} (h : last = ']' ∨ last = '}') (k : Nat) :
    Place.next ⟨.outside, k + 1⟩ last = ⟨.outside, k⟩ := by
  rcases h with rfl | rfl <;> rfl

/-- A container with balanced contents is balanced. -/
theorem Balanced.container {cs : List Char} {first last : Char} (hcs : Balanced cs)
    (hfirst : first = '[' ∨ first = '{') (hlast : last = ']' ∨ last = '}') : Balanced (first :: (cs ++ [last])) := by
  intro k
  rw [Place.after_cons, Place.next_open hfirst, Place.after_append, hcs, Place.after_cons, Place.next_close hlast,
    Place.after_nil]

/-! ## Strings -/

/-- A hexadecimal digit of an escape does not end the string. -/
theorem next_within_hexDigit {n : Nat} (hn : n < 16) (k : Nat) :
    Place.next ⟨.within, k⟩ ("0123456789abcdef".toList.getD n '0') = ⟨.within, k⟩ := by
  have hall : ∀ n < 16, "0123456789abcdef".toList.getD n '0' ≠ '"' ∧ "0123456789abcdef".toList.getD n '0' ≠ '\\' := by
    decide
  obtain ⟨hquote, hbackslash⟩ := hall n hn
  simp only [Place.next]
  rw [if_neg hquote, if_neg hbackslash]

/-- A character of a string is read within the string. -/
theorem after_escaped (c : Char) (k : Nat) : Place.after ⟨.within, k⟩ (escaped c) = ⟨.within, k⟩ := by
  rcases escaped_cases c with ⟨e, hescaped, -, -⟩ | ⟨hcontrol, hescaped⟩ | ⟨hquote, hbackslash, -, hescaped⟩
  · rw [hescaped]
    rfl
  · have hhigh := next_within_hexDigit (n := c.toNat / 16) (by omega) k
    have hlow := next_within_hexDigit (n := c.toNat % 16) (by omega) k
    rw [hescaped, unicodeEscape]
    show Place.next (Place.next ⟨.within, k⟩ _) _ = _
    rw [hhigh, hlow]
  · rw [hescaped]
    simp [Place.next, hquote, hbackslash]

theorem after_content (cs : List Char) (k : Nat) : Place.after ⟨.within, k⟩ (cs.flatMap escaped) = ⟨.within, k⟩ := by
  induction cs with
  | nil => rfl
  | cons c cs ih => rw [List.flatMap_cons, Place.after_append, after_escaped, ih]

theorem balanced_quoted (s : String) : Balanced (quoted s) := by
  intro k
  have hopen : Place.next ⟨.outside, k⟩ '"' = ⟨.within, k⟩ := rfl
  rw [quoted, Place.after_cons, hopen, Place.after_append, after_content]
  rfl

/-! ## Numerals and gaps -/

theorem not_isMark_of_isDigit {c : Char} (h : c.isDigit = true) : isMark c = false := by
  rw [isMark, decide_eq_false_iff_not]
  intro hmem
  simp only [List.mem_cons, List.not_mem_nil, or_false] at hmem
  rcases hmem with rfl | rfl | rfl | rfl | rfl <;> cases h

theorem balanced_numeral {n : Numeral} (hn : n.WellFormed) (plus : Bool) : Balanced (n.text plus) := by
  refine balanced_of_not_isMark fun c hc => ?_
  rcases Numeral.mem_text hn hc with hdigit | hmark
  · exact not_isMark_of_isDigit hdigit
  · simp only [List.mem_cons, List.not_mem_nil, or_false] at hmark
    rcases hmark with rfl | rfl | rfl | rfl <;> rfl

theorem balanced_gap (layout : Layout) (level : Nat) : Balanced (layout.gap level) := by
  cases layout with
  | compact => exact balanced_nil
  | indented width =>
    exact balanced_of_not_isMark (List.forall_mem_cons.2 ⟨rfl, List.forall_mem_replicate.2 (.inr rfl)⟩)

/-- The gap before a closing bracket, if there is one. -/
theorem balanced_stop (layout : Layout) (empty : Bool) (level : Nat) :
    Balanced (if empty then [] else layout.gap level) := by
  cases empty with
  | true => exact balanced_nil
  | false => exact balanced_gap layout level

/-- The comma in front of every item but the first one. -/
theorem balanced_comma (first : Bool) : Balanced (if first then [] else [',']) := by
  cases first <;> exact fun _ => rfl

theorem balanced_start (layout : Layout) (first : Bool) (level : Nat) : Balanced (layout.start first level) :=
  (balanced_comma first).append (balanced_gap layout level)

theorem balanced_colon (layout : Layout) : Balanced layout.colon := by
  cases layout <;> exact fun _ => rfl

/-! ## Documents -/

mutual

theorem balanced_textAt (layout : Layout) (level : Nat) : ∀ {j : Json}, j.WellFormed → Balanced (textAt layout level j)
  | null, _ => fun _ => rfl
  | bool true, _ => fun _ => rfl
  | bool false, _ => fun _ => rfl
  | number n, hj => by
    rw [WellFormed] at hj
    rw [textAt]
    exact balanced_numeral hj floatStyle.plus
  | string s, _ => by
    rw [textAt]
    exact balanced_quoted s
  | array items, hj => by
    rw [WellFormed] at hj
    rw [textAt]
    have hcontent := balanced_itemsText layout (level + 1) true hj
    exact (hcontent.append (balanced_stop layout _ level)).container (.inl rfl) (.inl rfl)
  | object members, hj => by
    rw [WellFormed] at hj
    rw [textAt]
    have hcontent := balanced_membersText layout (level + 1) true hj
    exact (hcontent.append (balanced_stop layout _ level)).container (.inr rfl) (.inr rfl)

theorem balanced_itemsText (layout : Layout) (level : Nat) (first : Bool) :
    ∀ {items : List Json}, ItemsWellFormed items → Balanced (itemsText layout level first items)
  | [], _ => balanced_nil
  | item :: rest, hitems => by
    rw [ItemsWellFormed] at hitems
    rw [itemsText]
    exact ((balanced_start layout first level).append (balanced_textAt layout level hitems.1)).append
      (balanced_itemsText layout level false hitems.2)

theorem balanced_membersText (layout : Layout) (level : Nat) (first : Bool) :
    ∀ {members : List (String × Json)}, MembersWellFormed members → Balanced (membersText layout level first members)
  | [], _ => balanced_nil
  | (name, value) :: rest, hmembers => by
    rw [MembersWellFormed] at hmembers
    rw [membersText]
    exact ((((balanced_start layout first level).append (balanced_quoted name)).append (balanced_colon layout)).append
      (balanced_textAt layout level hmembers.1)).append (balanced_membersText layout level false hmembers.2)

end

end Fixtures.Json
