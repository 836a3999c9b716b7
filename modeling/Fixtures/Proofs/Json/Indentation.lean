/-
The lines of indented documents. A line begins with a fixed number of spaces for each container that is open
where it begins, but for one that its first character closes; so no line is indented further than the document
is high, and one is indented so far.

The induction is on the document at a level. Every line that begins within it begins with a gap, and behind the
gap stands an item, a member or a closing bracket.
-/
import Fixtures.Proofs.Json.Nesting

namespace Fixtures

namespace Json

/-! ## Lines -/

/-- A line: the spaces at its start, the first character behind them, if there is one, and the containers that
are open where the line begins. -/
structure Line where
  indent : Nat
  first? : Option Char
  opened : Nat
  deriving DecidableEq

namespace Line

def ofText (opened : Nat) (cs : List Char) : Line :=
  ⟨(cs.takeWhile (· = ' ')).length, (cs.dropWhile (· = ' ')).head?, opened⟩

/-- The containers around a line: those that are open where it begins, but for one that its first character
closes. -/
def level (l : Line) : Nat := l.opened - if l.first? = some ']' ∨ l.first? = some '}' then 1 else 0

/-- A line with a character behind its spaces. -/
theorem ofText_replicate (n k : Nat) {c : Char} {cs : List Char} (hc : c ≠ ' ') :
    ofText k (List.replicate n ' ' ++ c :: cs) = ⟨n, some c, k⟩ := by
  have hspaces : ∀ d ∈ List.replicate n ' ', decide (d = ' ') = true := List.forall_mem_replicate.2 (.inr rfl)
  rw [ofText, List.takeWhile_append_of_pos hspaces, List.dropWhile_append_of_pos hspaces,
    List.takeWhile_cons_of_neg (by simpa using hc), List.dropWhile_cons_of_neg (by simpa using hc)]
  simp

theorem level_of_ne {l : Line} {c : Char} (h : l.first? = some c) (hbracket : c ≠ ']') (hbrace : c ≠ '}') :
    l.level = l.opened := by
  simp [level, h, hbracket, hbrace]

end Line

/-- The lines of a text from a place on, from the characters of each. -/
def linesFrom (p : Place) : List (List Char) → List Line
  | [] => []
  | cs :: rest => .ofText p.opened cs :: linesFrom ((p.after cs).next '\n') rest

/-- The lines of a text. -/
def lines (cs : List Char) : List Line := linesFrom .start (cs.splitOn '\n')

/-- The lines of a text from a place on that begin behind an end of line. -/
def begun (p : Place) : List Char → List Line
  | [] => []
  | c :: cs =>
    if c = '\n' then .ofText (p.next c).opened (cs.takeWhile (· ≠ '\n')) :: begun (p.next c) cs
    else begun (p.next c) cs

theorem splitOn_newline (cs : List Char) :
    ∃ rest, cs.splitOn '\n' = cs.takeWhile (· ≠ '\n') :: rest ∧
      ∀ p : Place, linesFrom ((p.after (cs.takeWhile (· ≠ '\n'))).next '\n') rest = begun p cs := by
  induction cs with
  | nil => exact ⟨[], rfl, fun p => rfl⟩
  | cons c cs ih =>
    obtain ⟨rest, hsplit, hbegun⟩ := ih
    rw [List.splitOn] at hsplit ⊢
    rw [List.splitOnP_cons_eq_if_modifyHead, hsplit]
    by_cases hc : c = '\n'
    · subst hc
      refine ⟨_, rfl, fun p => ?_⟩
      simp [begun, linesFrom, ← hbegun]
    · refine ⟨rest, by simp [hc], fun p => ?_⟩
      simp [begun, hc, ← hbegun]

theorem lines_eq (cs : List Char) : lines cs = .ofText 0 (cs.takeWhile (· ≠ '\n')) :: begun .start cs := by
  obtain ⟨rest, hsplit, hbegun⟩ := splitOn_newline cs
  rw [lines, hsplit, linesFrom, hbegun]
  rfl

/-! ## Texts with and without ends of line -/

theorem begun_append_of_notMem {cs : List Char} (h : '\n' ∉ cs) (p : Place) (ds : List Char) :
    begun p (cs ++ ds) = begun (p.after cs) ds := by
  induction cs generalizing p with
  | nil => rfl
  | cons c cs ih =>
    rw [List.mem_cons, not_or] at h
    rw [List.cons_append, begun, if_neg (Ne.symm h.1), ih h.2, Place.after_cons]

/-- A balanced text within a line. -/
theorem Balanced.begun_append {cs : List Char} (hcs : Balanced cs) (h : '\n' ∉ cs) (k : Nat) (ds : List Char) :
    begun ⟨.outside, k⟩ (cs ++ ds) = begun ⟨.outside, k⟩ ds := by
  rw [begun_append_of_notMem h, hcs]

/-- A gap begins the line of the character behind it. -/
theorem begun_gap (width level k : Nat) {c : Char} (hspace : c ≠ ' ') (hline : c ≠ '\n') (cs : List Char) :
    begun ⟨.outside, k⟩ ((Layout.indented width).gap level ++ c :: cs) =
      ⟨level * width, some c, k⟩ :: begun ⟨.outside, k⟩ (c :: cs) := by
  have hspaces : ∀ d ∈ List.replicate (level * width) ' ', decide (d ≠ '\n') = true :=
    List.forall_mem_replicate.2 (.inr rfl)
  have hnot : '\n' ∉ List.replicate (level * width) ' ' := by
    intro hmem
    cases (List.mem_replicate.1 hmem).2
  have hbalanced : Balanced (List.replicate (level * width) ' ') :=
    balanced_of_not_isMark (List.forall_mem_replicate.2 (.inr rfl))
  rw [Layout.gap, List.cons_append, begun, if_pos rfl, Place.next_of_not_isMark rfl, hbalanced.begun_append hnot,
    List.takeWhile_append_of_pos hspaces, List.takeWhile_cons_of_pos (by simpa using hline),
    Line.ofText_replicate _ _ hspace]

/-! ## Heights -/

mutual

/-- How far the lines of a document lie below its level: by one in a container, and further in those within. -/
def height : Json → Nat
  | array items => itemsHeight items
  | object members => membersHeight members
  | null | bool _ | number _ | string _ | unpaired => 0

def itemsHeight : List Json → Nat
  | [] => 0
  | item :: rest => max (item.height + 1) (itemsHeight rest)

def membersHeight : List (String × Json) → Nat
  | [] => 0
  | (_, value) :: rest => max (value.height + 1) (membersHeight rest)

end

/-! ## Levels of lines -/

/-- Lines within a text at a level: each is indented by its own level and has a character, and the highest one
lies a height above the level of the text, unless the height is zero. -/
structure Laid (width level height : Nat) (ls : List Line) : Prop where
  indent : ∀ l ∈ ls, l.indent = width * l.level
  first : ∀ l ∈ ls, l.first?.isSome = true
  level_le : ∀ l ∈ ls, l.level ≤ level + height
  top : 0 < height → ∃ l ∈ ls, l.level = level + height

variable {width level h h' : Nat} {ls ls' : List Line}

theorem laid_nil (width level : Nat) : Laid width level 0 [] where
  indent := by simp
  first := by simp
  level_le := by simp
  top := by simp

theorem Laid.append (hls : Laid width level h ls) (hls' : Laid width level h' ls') :
    Laid width level (max h h') (ls ++ ls') where
  indent := List.forall_mem_append.2 ⟨hls.indent, hls'.indent⟩
  first := List.forall_mem_append.2 ⟨hls.first, hls'.first⟩
  level_le := List.forall_mem_append.2
    ⟨fun l hl => by have := hls.level_le l hl; omega, fun l hl => by have := hls'.level_le l hl; omega⟩
  top := by
    intro hpos
    rcases Nat.le_total h h' with hle | hle
    · obtain ⟨l, hl, hlevel⟩ := hls'.top (by omega)
      exact ⟨l, List.mem_append_right ls hl, by omega⟩
    · obtain ⟨l, hl, hlevel⟩ := hls.top (by omega)
      exact ⟨l, List.mem_append_left ls' hl, by omega⟩

/-- The lines of an item or member: one that it begins, and those that begin within it. -/
theorem Laid.item {c : Char} (hbracket : c ≠ ']') (hbrace : c ≠ '}') (hls : Laid width (level + 1) h ls) :
    Laid width level (h + 1) (⟨(level + 1) * width, some c, level + 1⟩ :: ls) := by
  have hlevel : (⟨(level + 1) * width, some c, level + 1⟩ : Line).level = level + 1 :=
    Line.level_of_ne rfl hbracket hbrace
  refine ⟨?_, ?_, ?_, fun _ => ?_⟩
  · refine List.forall_mem_cons.2 ⟨?_, hls.indent⟩
    rw [hlevel, Nat.mul_comm]
  · exact List.forall_mem_cons.2 ⟨rfl, hls.first⟩
  · refine List.forall_mem_cons.2 ⟨by omega, fun l hl => ?_⟩
    have := hls.level_le l hl
    omega
  · rcases Nat.eq_zero_or_pos h with rfl | hpos
    · exact ⟨_, List.mem_cons_self, hlevel⟩
    · obtain ⟨l, hl, hl'⟩ := hls.top hpos
      exact ⟨l, List.mem_cons_of_mem _ hl, by omega⟩

/-- The line of a closing bracket is at the level of the container. -/
theorem laid_close (width level : Nat) {last : Char} (hlast : last = ']' ∨ last = '}') :
    Laid width level 0 [⟨level * width, some last, level + 1⟩] := by
  have hlevel : (⟨level * width, some last, level + 1⟩ : Line).level = level := by
    rcases hlast with rfl | rfl <;> rfl
  refine ⟨?_, ?_, ?_, fun hpos => absurd hpos (Nat.lt_irrefl 0)⟩
  · rw [List.forall_mem_singleton, hlevel, Nat.mul_comm]
  · rw [List.forall_mem_singleton]
    rfl
  · rw [List.forall_mem_singleton, hlevel]
    exact Nat.le_refl level

theorem Laid.stop (hls : Laid width level h ls) (empty : Bool) {last : Char} (hlast : last = ']' ∨ last = '}') :
    Laid width level h (ls ++ if empty then [] else [⟨level * width, some last, level + 1⟩]) := by
  cases empty with
  | true => simpa using hls
  | false => simpa using hls.append (laid_close width level hlast)

/-! ## Lines that begin in a document -/

/-- A text in which some lines begin, from a place with `k` open containers on, whatever follows it. -/
def Begins (k : Nat) (cs : List Char) (ls : List Line) : Prop :=
  ∀ ds, begun ⟨.outside, k⟩ (cs ++ ds) = ls ++ begun ⟨.outside, k⟩ ds

theorem begins_nil (k : Nat) : Begins k [] [] := fun _ => rfl

theorem Balanced.begins {cs : List Char} (hcs : Balanced cs) (h : '\n' ∉ cs) (k : Nat) : Begins k cs [] :=
  fun ds => hcs.begun_append h k ds

theorem Begins.append {k : Nat} {cs cs' : List Char} (hcs : Begins k cs ls) (hcs' : Begins k cs' ls') :
    Begins k (cs ++ cs') (ls ++ ls') := by
  intro ds
  rw [List.append_assoc, hcs, hcs', List.append_assoc]

/-- The text of an item or member begins a line, behind the comma of the one before it. -/
theorem Begins.start {k : Nat} {c : Char} {cs : List Char} (hcs : Begins k (c :: cs) ls) (width level : Nat) (first : Bool)
    (hspace : c ≠ ' ') (hline : c ≠ '\n') :
    Begins k ((Layout.indented width).start first level ++ c :: cs) (⟨level * width, some c, k⟩ :: ls) := by
  have hnot : '\n' ∉ (if first then [] else [',']) := by cases first <;> decide
  intro ds
  rw [Layout.start, List.append_assoc, List.append_assoc, (balanced_comma first).begun_append hnot, List.cons_append,
    begun_gap _ _ _ hspace hline, ← List.cons_append, hcs]
  rfl

theorem begins_container {inner : List Char} {first last : Char} (hfirst : first = '[' ∨ first = '{')
    (hlast : last = ']' ∨ last = '}') (width level : Nat) (hinner : Begins (level + 1) inner ls) (empty : Bool) :
    Begins level (first :: (inner ++ (if empty then [] else (Layout.indented width).gap level) ++ [last]))
      (ls ++ if empty then [] else [⟨level * width, some last, level + 1⟩]) := by
  have hopen (ds : List Char) : begun ⟨.outside, level⟩ (first :: ds) = begun ⟨.outside, level + 1⟩ ds := by
    rcases hfirst with rfl | rfl <;> rfl
  have hclose (ds : List Char) : begun ⟨.outside, level + 1⟩ (last :: ds) = begun ⟨.outside, level⟩ ds := by
    rcases hlast with rfl | rfl <;> rfl
  intro ds
  rw [List.cons_append, hopen, List.append_assoc, List.append_assoc, hinner]
  cases empty with
  | true =>
    show ls ++ begun _ (last :: ds) = ls ++ [] ++ _
    rw [hclose, List.append_nil]
  | false =>
    show ls ++ begun _ ((Layout.indented width).gap level ++ last :: ds) = ls ++ [_] ++ _
    rw [begun_gap _ _ _ (by rcases hlast with rfl | rfl <;> decide) (by rcases hlast with rfl | rfl <;> decide), hclose,
      List.append_assoc]
    rfl

theorem notMem_of_le {cs : List Char} (h : ∀ c ∈ cs, 32 ≤ c.toNat) : '\n' ∉ cs := fun hmem =>
  absurd (h _ hmem) (by decide)

mutual

/-- The lines that begin within a document at a level. -/
theorem exists_begins_textAt (width level : Nat) :
    ∀ {j : Json}, j.WellFormed →
      ∃ ls, Begins level (textAt (.indented width) level j) ls ∧ Laid width level j.height ls
  | null, _ => ⟨[], (balanced_textAt _ level (j := null) trivial).begins (by decide : '\n' ∉ "null".toList) level,
      laid_nil width level⟩
  | bool b, _ => by
    refine ⟨[], (balanced_textAt _ level (j := bool b) trivial).begins ?_ level, laid_nil width level⟩
    cases b with
    | true => exact (by decide : '\n' ∉ "true".toList)
    | false => exact (by decide : '\n' ∉ "false".toList)
  | number n, hj => by
    refine ⟨[], (balanced_textAt _ level hj).begins ?_ level, laid_nil width level⟩
    rw [WellFormed] at hj
    rw [textAt]
    exact notMem_of_le fun c hc => Numeral.le_of_mem_text hj hc
  | string s, hj => by
    refine ⟨[], (balanced_textAt _ level hj).begins ?_ level, laid_nil width level⟩
    rw [textAt]
    exact notMem_of_le fun c hc => le_of_mem_quoted hc
  | array items, hj => by
    rw [WellFormed] at hj
    obtain ⟨ls, hbegins, hlaid⟩ := exists_begins_itemsText width level true hj
    rw [textAt, height]
    exact ⟨_, begins_container (.inl rfl) (.inl rfl) width level hbegins items.isEmpty, hlaid.stop _ (.inl rfl)⟩
  | object members, hj => by
    rw [WellFormed] at hj
    obtain ⟨ls, hbegins, hlaid⟩ := exists_begins_membersText width level true hj
    rw [textAt, height]
    exact ⟨_, begins_container (.inr rfl) (.inr rfl) width level hbegins members.isEmpty, hlaid.stop _ (.inr rfl)⟩

theorem exists_begins_itemsText (width level : Nat) (first : Bool) :
    ∀ {items : List Json}, ItemsWellFormed items →
      ∃ ls, Begins (level + 1) (itemsText (.indented width) (level + 1) first items) ls ∧
        Laid width level (itemsHeight items) ls
  | [], _ => ⟨[], begins_nil _, laid_nil width level⟩
  | item :: rest, hitems => by
    rw [ItemsWellFormed] at hitems
    obtain ⟨ls, hbegins, hlaid⟩ := exists_begins_textAt width (level + 1) hitems.1
    obtain ⟨ls', hbegins', hlaid'⟩ := exists_begins_itemsText width level false hitems.2
    obtain ⟨c, cs, htext, hspace, hbracket, hbrace⟩ := textAt_head (.indented width) (level + 1) hitems.1
    rw [htext] at hbegins
    rw [itemsText, itemsHeight, htext]
    refine ⟨_, (hbegins.start width (level + 1) first ?_ ?_).append hbegins', ?_⟩
    · rintro rfl
      cases hspace
    · rintro rfl
      cases hspace
    · exact (hlaid.item hbracket hbrace).append hlaid'

theorem exists_begins_membersText (width level : Nat) (first : Bool) :
    ∀ {members : List (String × Json)}, MembersWellFormed members →
      ∃ ls, Begins (level + 1) (membersText (.indented width) (level + 1) first members) ls ∧
        Laid width level (membersHeight members) ls
  | [], _ => ⟨[], begins_nil _, laid_nil width level⟩
  | (name, value) :: rest, hmembers => by
    rw [MembersWellFormed] at hmembers
    obtain ⟨ls, hbegins, hlaid⟩ := exists_begins_textAt width (level + 1) hmembers.1
    obtain ⟨ls', hbegins', hlaid'⟩ := exists_begins_membersText width level false hmembers.2
    -- the name and the colon stand on one line with the start of the value
    have hname := (balanced_quoted name).begins (notMem_of_le fun c hc => le_of_mem_quoted hc) (level + 1)
    have hcolon := (balanced_colon (.indented width)).begins (by decide : '\n' ∉ [':', ' ']) (level + 1)
    have hmember : Begins (level + 1) ('"' :: ((quoted name).tail ++ (Layout.indented width).colon ++
        textAt (.indented width) (level + 1) value)) ls := (hname.append hcolon).append hbegins
    have hline := hmember.start width (level + 1) first (by decide) (by decide)
    have htext : membersText (.indented width) (level + 1) first ((name, value) :: rest) =
        (Layout.indented width).start first (level + 1) ++ '"' :: ((quoted name).tail ++ (Layout.indented width).colon ++
          textAt (.indented width) (level + 1) value) ++ membersText (.indented width) (level + 1) false rest := by
      simp [membersText, quoted]
    rw [htext, membersHeight]
    exact ⟨_, hline.append hbegins', (hlaid.item (by decide) (by decide)).append hlaid'⟩

end

/-! ## Texts of documents -/

/-- A text every line of which begins with `width` spaces for each container around it, and a character behind
them. The number of containers around a line is `top` at most, and for some line it is. -/
structure Indented (width top : Nat) (cs : List Char) : Prop where
  indent : ∀ l ∈ lines cs, l.indent = width * l.level
  first : ∀ l ∈ lines cs, l.first?.isSome = true
  level_le : ∀ l ∈ lines cs, l.level ≤ top
  top : ∃ l ∈ lines cs, l.level = top

theorem indented_text {j : Json} (hj : j.WellFormed) (width : Nat) :
    Indented width j.height (j.text (.indented width)) := by
  obtain ⟨ls, hbegins, hlaid⟩ := exists_begins_textAt width 0 hj
  obtain ⟨c, cs, htext, hspace, hbracket, hbrace⟩ := textAt_head (.indented width) 0 hj
  have hfirst : Line.ofText 0 ((textAt (.indented width) 0 j).takeWhile (· ≠ '\n')) = ⟨0, some c, 0⟩ := by
    rw [htext, List.takeWhile_cons_of_pos]
    · exact Line.ofText_replicate 0 0 (by rintro rfl; cases hspace)
    · simp only [decide_not, Bool.not_eq_true', decide_eq_false_iff_not]
      rintro rfl
      cases hspace
  have hlines : lines (j.text (.indented width)) = ⟨0, some c, 0⟩ :: ls := by
    have hbegun := hbegins []
    rw [List.append_nil] at hbegun
    rw [text_eq, lines_eq, hfirst]
    show _ :: begun ⟨.outside, 0⟩ _ = _
    rw [hbegun]
    simp [begun]
  have hlevel : (⟨0, some c, 0⟩ : Line).level = 0 := Nat.zero_sub _
  refine ⟨?_, ?_, ?_, ?_⟩ <;> rw [hlines]
  · exact List.forall_mem_cons.2 ⟨by rw [hlevel, Nat.mul_zero], hlaid.indent⟩
  · exact List.forall_mem_cons.2 ⟨rfl, hlaid.first⟩
  · refine List.forall_mem_cons.2 ⟨by omega, fun l hl => ?_⟩
    have := hlaid.level_le l hl
    omega
  · rcases Nat.eq_zero_or_pos j.height with hzero | hpos
    · exact ⟨_, List.mem_cons_self, by omega⟩
    · obtain ⟨l, hl, htop⟩ := hlaid.top hpos
      exact ⟨l, List.mem_cons_of_mem _ hl, by omega⟩

end Json

end Fixtures
