/-
Documents are read from their texts: in every layout, with all of their strings, and with the members of an
object in order, also under repeated names.
-/
import Fixtures.Proofs.Json.Numeral
import Fixtures.Proofs.Json.Text

namespace Fixtures.Json

/-! ## Strings -/

theorem hexUnit?_unicodeEscape {n : Nat} (hn : n < 32) :
    hexUnit? '0' '0' ("0123456789abcdef".toList.getD (n / 16) '0')
      ("0123456789abcdef".toList.getD (n % 16) '0') = some n := by
  revert n
  decide

theorem readContent?_unicodeEscape (acc : List Char) (paired : Bool) {c : Char} (hc : c.toNat < 32) (rest : List Char) :
    readContent? acc paired (unicodeEscape c ++ rest) = readContent? (c :: acc) paired rest := by
  have hunit := hexUnit?_unicodeEscape hc
  have hhigh : isHighHalf c.toNat = false := by
    simp only [isHighHalf, Bool.and_eq_false_iff, decide_eq_false_iff_not]
    omega
  have hlow : isLowHalf c.toNat = false := by
    simp only [isLowHalf, Bool.and_eq_false_iff, decide_eq_false_iff_not]
    omega
  unfold unicodeEscape
  simp only [List.cons_append, List.nil_append]
  rw [readContent?, hunit]
  simp only [hhigh, hlow, Bool.false_eq_true, if_false, Char.ofNat_toNat]

/-- A character is written as a short escape that stands for it, as a control character by its number, or as
it is. -/
theorem escaped_cases (c : Char) :
    (∃ e, escaped c = ['\\', e] ∧ shortEscape? e = some c ∧ e ≠ 'u') ∨
      (c.toNat < 32 ∧ escaped c = unicodeEscape c) ∨ (c ≠ '"' ∧ c ≠ '\\' ∧ 32 ≤ c.toNat ∧ escaped c = [c]) := by
  unfold escaped escape?
  by_cases hquote : c = '"'
  · subst hquote
    exact .inl ⟨'"', rfl, rfl, by decide⟩
  by_cases hbackslash : c = '\\'
  · subst hbackslash
    exact .inl ⟨'\\', rfl, rfl, by decide⟩
  rw [if_neg hquote, if_neg hbackslash]
  split
  · subst c
    exact .inl ⟨'b', rfl, rfl, by decide⟩
  split
  · subst c
    exact .inl ⟨'t', rfl, rfl, by decide⟩
  split
  · subst c
    exact .inl ⟨'n', rfl, rfl, by decide⟩
  split
  · subst c
    exact .inl ⟨'f', rfl, rfl, by decide⟩
  split
  · subst c
    exact .inl ⟨'r', rfl, rfl, by decide⟩
  split
  · rename_i hcontrol
    exact .inr (.inl ⟨hcontrol, rfl⟩)
  · rename_i hcontrol
    exact .inr (.inr ⟨hquote, hbackslash, by omega, rfl⟩)

/-- A character is read from within a string as it is written there. -/
theorem readContent?_escaped (acc : List Char) (paired : Bool) (c : Char) (rest : List Char) :
    readContent? acc paired (escaped c ++ rest) = readContent? (c :: acc) paired rest := by
  rcases escaped_cases c with ⟨e, hescaped, hshort, hu⟩ | ⟨hcontrol, hescaped⟩ | ⟨hquote, hbackslash, hprint, hescaped⟩
  · rw [hescaped, List.cons_append, List.cons_append, List.nil_append, readContent?, hshort]
    intro a b c d behind heq
    exact absurd heq hu
  · rw [hescaped, readContent?_unicodeEscape acc paired hcontrol]
  · rw [hescaped, List.cons_append, List.nil_append, readContent?, if_neg (by omega)]
    · exact hquote
    · exact fun _ _ _ _ _ heq => absurd heq hbackslash
    · exact fun _ _ heq => absurd heq hbackslash

theorem readContent?_content (acc : List Char) (cs rest : List Char) :
    readContent? acc true (cs.flatMap escaped ++ '"' :: rest) =
      some (some (String.ofList (acc.reverse ++ cs)), rest) := by
  induction cs generalizing acc with
  | nil => simp [readContent?]
  | cons c cs ih =>
    rw [List.flatMap_cons, List.append_assoc, readContent?_escaped, ih]
    simp

/-- A string is read from behind its opening quote. -/
theorem readContent?_quoted (s : String) (rest : List Char) :
    readContent? [] true ((quoted s).tail ++ rest) = some (some s, rest) := by
  rw [quoted, List.tail_cons, List.append_assoc, List.singleton_append, readContent?_content]
  simp

/-! ## White space -/

theorem skipSpace_cons {c : Char} (hc : isSpace c = false) (cs : List Char) : skipSpace (c :: cs) = c :: cs := by
  simp [skipSpace, hc]

theorem skipSpace_skipSpace (cs : List Char) : skipSpace (skipSpace cs) = skipSpace cs := by
  induction cs with
  | nil => rfl
  | cons c cs ih =>
    cases hc : isSpace c with
    | true => simpa [skipSpace, hc] using ih
    | false => rw [skipSpace_cons hc, skipSpace_cons hc]

theorem skipSpace_gap (layout : Layout) (level : Nat) (cs : List Char) :
    skipSpace (layout.gap level ++ cs) = skipSpace cs := by
  refine List.dropWhile_append_of_pos fun c hc => ?_
  cases layout with
  | compact => cases hc
  | indented width =>
    rcases List.mem_cons.1 hc with rfl | hc
    · rfl
    · rw [(List.mem_replicate.1 hc).2]
      rfl

theorem endsNumeral_nil : EndsNumeral [] := fun _ hc => nomatch hc

theorem endsNumeral_gap (layout : Layout) (level : Nat) {c : Char} {cs : List Char} (hc : EndsNumeral (c :: cs)) :
    EndsNumeral (layout.gap level ++ c :: cs) := by
  cases layout with
  | compact => exact hc
  | indented width =>
    rintro d hd
    cases hd
    decide

theorem endsNumeral_cons {c : Char} (cs : List Char) (hc : c = ',' ∨ c = ']' ∨ c = '}') : EndsNumeral (c :: cs) := by
  rintro d hd
  cases hd
  rcases hc with rfl | rfl | rfl <;> decide

/-! ## Well-formed documents -/

mutual

/-- Every number in the document is a well-formed numeral, and every string stands for a text. -/
def WellFormed : Json → Prop
  | null | bool _ | string _ => True
  | number n => n.WellFormed
  | array items => ItemsWellFormed items
  | object members => MembersWellFormed members
  | unpaired => False

def ItemsWellFormed : List Json → Prop
  | [] => True
  | item :: rest => WellFormed item ∧ ItemsWellFormed rest

def MembersWellFormed : List (String × Json) → Prop
  | [] => True
  | (_, value) :: rest => WellFormed value ∧ MembersWellFormed rest

end

/-- The text of a numeral starts with a sign or a digit. -/
theorem numeral_text_head {n : Numeral} (hn : n.WellFormed) (plus : Bool) :
    ∃ c cs, n.text plus = c :: cs ∧ (c = '-' ∨ c.isDigit = true) := by
  unfold Numeral.text
  cases n.negative with
  | true => exact ⟨'-', _, rfl, .inl rfl⟩
  | false =>
    obtain ⟨c, cs, hwhole⟩ := List.exists_cons_of_ne_nil hn.whole_ne_nil
    rw [hwhole]
    exact ⟨c, _, rfl, .inr (hn.isDigit_whole c (by rw [hwhole]; exact List.mem_cons_self))⟩

/-- The text of a document starts with neither white space nor a closing bracket. -/
theorem textAt_head (layout : Layout) (level : Nat) {j : Json} (hj : j.WellFormed) :
    ∃ c cs, textAt layout level j = c :: cs ∧ isSpace c = false ∧ c ≠ ']' ∧ c ≠ '}' := by
  cases j with
  | null => exact ⟨'n', _, rfl, by decide⟩
  | bool b => cases b <;> exact ⟨_, _, rfl, by decide⟩
  | number n =>
    rw [WellFormed] at hj
    obtain ⟨c, cs, htext, hc⟩ := numeral_text_head hj floatStyle.plus
    refine ⟨c, cs, htext, ?_⟩
    rcases hc with rfl | hc
    · decide
    · refine ⟨?_, ?_, ?_⟩
      · simp only [isSpace, Bool.or_eq_false_iff, beq_eq_false_iff_ne]
        refine ⟨⟨⟨?_, ?_⟩, ?_⟩, ?_⟩ <;> rintro rfl <;> cases hc
      · rintro rfl
        cases hc
      · rintro rfl
        cases hc
  | string s => exact ⟨'"', _, rfl, by decide⟩
  | array items => exact ⟨'[', _, rfl, by decide⟩
  | object members => exact ⟨'{', _, rfl, by decide⟩
  | unpaired => exact hj.elim

/-! ## Documents -/

mutual

/-- The steps in which a document is read. -/
def steps : Json → Nat
  | array items => itemsSteps items + 1
  | object members => membersSteps members + 1
  | null | bool _ | number _ | string _ | unpaired => 1

def itemsSteps : List Json → Nat
  | [] => 0
  | item :: rest => steps item + itemsSteps rest + 1

def membersSteps : List (String × Json) → Nat
  | [] => 0
  | (_, value) :: rest => steps value + membersSteps rest + 1

end

/-- A later item has a comma in front of it. -/
theorem length_itemsText_le (layout : Layout) (level : Nat) (items : List Json) :
    (itemsText layout level false items).length ≤ (itemsText layout level true items).length + 1 := by
  cases items <;> simp [itemsText, Layout.start]

theorem length_membersText_le (layout : Layout) (level : Nat) (members : List (String × Json)) :
    (membersText layout level false members).length ≤ (membersText layout level true members).length + 1 := by
  cases members <;> simp [membersText, Layout.start]

mutual

/-- A document takes at most two steps a character. -/
theorem steps_le (layout : Layout) (level : Nat) :
    ∀ {j : Json}, j.WellFormed → steps j ≤ 2 * (textAt layout level j).length
  | array items, h => by
    rw [WellFormed] at h
    have hitems := itemsSteps_le layout (level + 1) h
    have hfirst := length_itemsText_le layout (level + 1) items
    simp only [steps, textAt, List.length_cons, List.length_append]
    omega
  | object members, h => by
    rw [WellFormed] at h
    have hmembers := membersSteps_le layout (level + 1) h
    have hfirst := length_membersText_le layout (level + 1) members
    simp only [steps, textAt, List.length_cons, List.length_append]
    omega
  | null, h | bool _, h | number _, h | string _, h => by
    obtain ⟨c, cs, htext, -⟩ := textAt_head layout level h
    rw [htext, steps, List.length_cons]
    omega

theorem itemsSteps_le (layout : Layout) (level : Nat) :
    ∀ {items : List Json}, ItemsWellFormed items → itemsSteps items ≤ 2 * (itemsText layout level false items).length
  | [], _ => Nat.zero_le _
  | item :: rest, h => by
    rw [ItemsWellFormed] at h
    have hitem := steps_le layout level h.1
    have hrest := itemsSteps_le layout level h.2
    simp only [itemsSteps, itemsText, Layout.start, Bool.false_eq_true, if_false, List.length_append,
      List.length_singleton]
    omega

theorem membersSteps_le (layout : Layout) (level : Nat) :
    ∀ {members : List (String × Json)}, MembersWellFormed members →
      membersSteps members ≤ 2 * (membersText layout level false members).length
  | [], _ => Nat.zero_le _
  | (name, value) :: rest, h => by
    rw [MembersWellFormed] at h
    have hvalue := steps_le layout level h.1
    have hrest := membersSteps_le layout level h.2
    simp only [membersSteps, membersText, Layout.start, Bool.false_eq_true, if_false, List.length_append,
      List.length_singleton]
    omega

end

theorem ofMembers_some (members : List (String × Json)) :
    ofMembers (members.map fun m => (some m.1, m.2)).reverse = object members := by
  have hall : (members.map fun m => (some m.1, m.2)).mapM (fun m : Option String × Json =>
      m.1.map fun s => (s, m.2)) = some members := by
    induction members with
    | nil => rfl
    | cons m rest ih => simp [ih]
  unfold ofMembers
  rw [List.reverse_reverse, hall]

/-- What starts like a numeral is read as one. -/
theorem readValue?_number {fuel : Nat} {c : Char} {cs ds : List Char} (hc : c = '-' ∨ c.isDigit = true)
    (hds : skipSpace ds = c :: cs) :
    readValue? (fuel + 1) ds = (readNumeral? (c :: cs)).map fun (n, rest) => (number n, rest) := by
  have hne {d : Char} (hsign : d ≠ '-') (hdigit : d.isDigit = false) : c ≠ d := by
    rintro rfl
    rcases hc with hc | hc
    · exact hsign hc
    · rw [hdigit] at hc
      cases hc
  rw [readValue?, hds]
  split
  all_goals first | rfl | rename_i heq
  all_goals exact absurd (List.cons.inj heq).1 (hne (by decide) (by decide))

theorem skipSpace_textAt (layout : Layout) (level : Nat) {j : Json} (hj : j.WellFormed) (rest : List Char) :
    skipSpace (textAt layout level j ++ rest) = textAt layout level j ++ rest := by
  obtain ⟨c, cs, htext, hspace, -⟩ := textAt_head layout level hj
  rw [htext, List.cons_append, skipSpace_cons hspace]

/-! ### Items -/

section Items

variable (layout : Layout) (level outer : Nat) {item next : Json} {others : List Json} (rest : List Char)

theorem skipSpace_itemsText (hitem : item.WellFormed) :
    skipSpace (itemsText layout level true (item :: others) ++ rest) =
      textAt layout level item ++ (itemsText layout level false others ++ rest) := by
  rw [itemsText, Layout.start, if_pos rfl, List.nil_append, List.append_assoc, List.append_assoc, skipSpace_gap,
    skipSpace_textAt layout level hitem]

theorem itemsText_later :
    itemsText layout level false (next :: others) = ',' :: itemsText layout level true (next :: others) := by
  simp [itemsText, Layout.start]

theorem endsNumeral_itemsText :
    EndsNumeral (itemsText layout level false others ++ (layout.gap outer ++ ']' :: rest)) := by
  cases others with
  | nil => exact endsNumeral_gap layout outer (endsNumeral_cons rest (.inr (.inl rfl)))
  | cons next others =>
    rw [itemsText_later]
    exact endsNumeral_cons _ (.inl rfl)

/-- An array with items is read from its first one on. -/
theorem readValue?_items {fuel : Nat} {cs : List Char} (hitem : item.WellFormed)
    (hcs : skipSpace cs = textAt layout level (array (item :: others)) ++ rest) :
    readValue? (fuel + 1) cs = readItems? fuel []
      (skipSpace (itemsText layout (level + 1) true (item :: others) ++ (layout.gap level ++ ']' :: rest))) := by
  have htext : textAt layout level (array (item :: others)) ++ rest =
      '[' :: (itemsText layout (level + 1) true (item :: others) ++ (layout.gap level ++ ']' :: rest)) := by
    simp [textAt]
  obtain ⟨c, ds, hfirst, -, hc, -⟩ := textAt_head layout (level + 1) hitem
  rw [readValue?, hcs, htext]
  simp only [skipSpace_itemsText layout (level + 1) _ hitem]
  rw [hfirst, List.cons_append]
  split
  · rename_i heq
    exact absurd (List.cons.inj heq).1 hc
  · rfl

end Items

/-! ### Members -/

section Members

variable (layout : Layout) (level outer : Nat) {name : String} {value : Json} {next : String × Json}
  {others : List (String × Json)} (rest : List Char)

theorem skipSpace_membersText :
    skipSpace (membersText layout level true ((name, value) :: others) ++ rest) =
      '"' :: ((quoted name).tail ++
        (layout.colon ++ (textAt layout level value ++ (membersText layout level false others ++ rest)))) := by
  simp only [membersText, Layout.start, if_pos, List.nil_append, List.append_assoc, skipSpace_gap]
  rw [quoted, List.cons_append, skipSpace_cons (by decide), List.tail_cons]

theorem skipSpace_colon (hvalue : value.WellFormed) :
    ∃ cs, skipSpace (layout.colon ++ (textAt layout level value ++ rest)) = ':' :: cs ∧
      skipSpace cs = textAt layout level value ++ rest := by
  cases layout with
  | compact => exact ⟨_, skipSpace_cons (by decide) _, skipSpace_textAt _ level hvalue rest⟩
  | indented width => exact ⟨_, skipSpace_cons (by decide) _, skipSpace_textAt _ level hvalue rest⟩

theorem membersText_later :
    membersText layout level false (next :: others) = ',' :: membersText layout level true (next :: others) := by
  simp [membersText, Layout.start]

theorem endsNumeral_membersText :
    EndsNumeral (membersText layout level false others ++ (layout.gap outer ++ '}' :: rest)) := by
  cases others with
  | nil => exact endsNumeral_gap layout outer (endsNumeral_cons rest (.inr (.inr rfl)))
  | cons next others =>
    rw [membersText_later]
    exact endsNumeral_cons _ (.inl rfl)

/-- An object with members is read from its first one on. -/
theorem readValue?_members {fuel : Nat} {cs : List Char}
    (hcs : skipSpace cs = textAt layout level (object ((name, value) :: others)) ++ rest) :
    readValue? (fuel + 1) cs = readMembers? fuel [] (skipSpace
      (membersText layout (level + 1) true ((name, value) :: others) ++ (layout.gap level ++ '}' :: rest))) := by
  have htext : textAt layout level (object ((name, value) :: others)) ++ rest =
      '{' :: (membersText layout (level + 1) true ((name, value) :: others) ++ (layout.gap level ++ '}' :: rest)) := by
    simp [textAt]
  rw [readValue?, hcs, htext]
  simp only [skipSpace_membersText]
  rfl

end Members

mutual

/-- A document is read from its text, whatever follows, if the text behind a numeral does not go on with it. -/
theorem readValue?_text (layout : Layout) (level : Nat) :
    ∀ {j : Json}, j.WellFormed → ∀ {fuel : Nat} {cs rest : List Char}, steps j ≤ fuel → EndsNumeral rest →
      skipSpace cs = textAt layout level j ++ rest → readValue? fuel cs = some (j, rest)
  | null, h, fuel + 1, cs, rest, hfuel, hrest, hcs => by
    rw [readValue?, hcs]
    rfl
  | bool true, h, fuel + 1, cs, rest, hfuel, hrest, hcs => by
    rw [readValue?, hcs]
    rfl
  | bool false, h, fuel + 1, cs, rest, hfuel, hrest, hcs => by
    rw [readValue?, hcs]
    rfl
  | number n, h, fuel + 1, cs, rest, hfuel, hrest, hcs => by
    rw [WellFormed] at h
    have hread := readNumeral?_text h floatStyle.plus hrest
    obtain ⟨c, ds, htext, hc⟩ := numeral_text_head h floatStyle.plus
    rw [textAt, htext, List.cons_append] at hcs
    rw [htext, List.cons_append] at hread
    rw [readValue?_number hc hcs, hread]
    rfl
  | string s, h, fuel + 1, cs, rest, hfuel, hrest, hcs => by
    have hread := readContent?_quoted s rest
    rw [quoted, List.tail_cons] at hread
    rw [readValue?, hcs, textAt, quoted, List.cons_append]
    simp only [hread]
    rfl
  | array [], h, fuel + 1, cs, rest, hfuel, hrest, hcs => by
    rw [readValue?, hcs]
    rfl
  | array (item :: others), h, fuel + 1, cs, rest, hfuel, hrest, hcs => by
    -- one step for the bracket, and the rest of them for the items
    rw [WellFormed] at h
    have hitem := h.1
    rw [readValue?_items layout level rest hitem hcs]
    exact readItems?_text layout (level + 1) level h [] (Nat.le_of_succ_le_succ hfuel) (skipSpace_skipSpace _)
      (List.cons_ne_nil _ _)
  | object [], h, fuel + 1, cs, rest, hfuel, hrest, hcs => by
    rw [readValue?, hcs]
    rfl
  | object ((name, value) :: others), h, fuel + 1, cs, rest, hfuel, hrest, hcs => by
    rw [WellFormed] at h
    rw [readValue?_members layout level rest hcs]
    exact readMembers?_text layout (level + 1) level h [] (Nat.le_of_succ_le_succ hfuel) (skipSpace_skipSpace _)
      (List.cons_ne_nil _ _)

/-- The items of an array are read from behind its bracket, or from behind a comma. -/
theorem readItems?_text (layout : Layout) (level outer : Nat) :
    ∀ {items : List Json}, ItemsWellFormed items → ∀ (acc : List Json) {fuel : Nat} {cs rest : List Char},
      itemsSteps items ≤ fuel →
      skipSpace cs = skipSpace (itemsText layout level true items ++ (layout.gap outer ++ ']' :: rest)) →
      items ≠ [] → readItems? fuel acc cs = some (array (acc.reverse ++ items), rest)
  | [], h, acc, fuel, cs, rest, hfuel, hcs, hne => absurd rfl hne
  | item :: others, h, acc, fuel + 1, cs, rest, hfuel, hcs, hne => by
    rw [ItemsWellFormed] at h
    simp only [itemsSteps] at hfuel
    have hvalue := readValue?_text layout level h.1 (by omega : steps item ≤ fuel)
      (endsNumeral_itemsText layout level outer rest) (hcs.trans (skipSpace_itemsText layout level _ h.1))
    rw [readItems?, hvalue]
    simp only
    cases others with
    | nil =>
      rw [itemsText, List.nil_append, skipSpace_gap, skipSpace_cons (by decide)]
      simp
    | cons next others =>
      rw [itemsText_later, List.cons_append, skipSpace_cons (by decide)]
      simp only
      rw [readItems?_text layout level outer h.2 (item :: acc) (by omega : itemsSteps (next :: others) ≤ fuel) rfl
        (List.cons_ne_nil _ _)]
      simp

/-- The members of an object are read from behind its brace, or from behind a comma. -/
theorem readMembers?_text (layout : Layout) (level outer : Nat) :
    ∀ {members : List (String × Json)}, MembersWellFormed members →
      ∀ (acc : List (String × Json)) {fuel : Nat} {cs rest : List Char}, membersSteps members ≤ fuel →
      skipSpace cs = skipSpace (membersText layout level true members ++ (layout.gap outer ++ '}' :: rest)) →
      members ≠ [] → readMembers? fuel (acc.map fun (name, value) => (some name, value)) cs =
        some (object (acc.reverse ++ members), rest)
  | [], h, acc, fuel, cs, rest, hfuel, hcs, hne => absurd rfl hne
  | (name, value) :: others, h, acc, fuel + 1, cs, rest, hfuel, hcs, hne => by
    rw [MembersWellFormed] at h
    simp only [membersSteps] at hfuel
    obtain ⟨ds, hcolon, hds⟩ := skipSpace_colon layout level
      (membersText layout level false others ++ (layout.gap outer ++ '}' :: rest)) h.1
    have hvalue := readValue?_text layout level h.1 (by omega : steps value ≤ fuel)
      (endsNumeral_membersText layout level outer rest) hds
    rw [skipSpace_membersText] at hcs
    rw [readMembers?, hcs]
    simp only [readContent?_quoted, hcolon, hvalue]
    cases others with
    | nil =>
      rw [membersText, List.nil_append, skipSpace_gap, skipSpace_cons (by decide)]
      simpa using ofMembers_some (acc.reverse ++ [(name, value)])
    | cons next others =>
      rw [membersText_later, List.cons_append, skipSpace_cons (by decide)]
      simp only
      refine (readMembers?_text layout level outer h.2 ((name, value) :: acc)
        (by omega : membersSteps (next :: others) ≤ fuel) rfl (List.cons_ne_nil _ _)).trans ?_
      simp

end

/-- A well-formed document is read from its text, in every layout. -/
theorem read?_text {j : Json} (hj : j.WellFormed) (layout : Layout) : read? (j.text layout) = some j := by
  have hfuel := steps_le layout 0 hj
  have hspace := skipSpace_textAt layout 0 hj []
  rw [List.append_nil] at hspace
  rw [text_eq]
  unfold read?
  rw [readValue?_text layout 0 hj (by omega : steps j ≤ 2 * (textAt layout 0 j).length + 1) endsNumeral_nil
    (by rw [hspace, List.append_nil])]
  rfl

end Fixtures.Json
