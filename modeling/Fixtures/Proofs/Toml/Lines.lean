/-
Documents that are written line by line: a line opens a table or puts a scalar under a key. Reading such a document
takes its lines one after the other, each of which does to the tables what it says.
-/
import Fixtures.Proofs.Toml.Scalar
import Fixtures.Proofs.Text.Span
import Fixtures.Toml.Reader

namespace Fixtures.Toml

variable {cs rest : List Char} {c : Char} {key : String} {parts path : List String} {root : Entries}

/-- A line that a document is written in. -/
inductive Line where
  | header (path : List String)
  | pair (key : String) (text : List Char) (v : Toml)

/-- Keys with points between them. -/
def dotted : List String → List Char
  | [] => []
  | [key] => key.toList
  | key :: rest => key.toList ++ '.' :: dotted rest

/-- A key that can be written without quotes. -/
def IsBareKey (key : String) : Prop := key.toList ≠ [] ∧ ∀ c ∈ key.toList, isBare c = true

/-- A text that is read as a value at the end of a line. -/
def IsValueText (text : List Char) (v : Toml) : Prop :=
  (∀ c ∈ text.head?, isSpace c = false) ∧
    ∀ rest, readValue? (depthLimit - 1) (text ++ '\n' :: rest) = some (v, '\n' :: rest)

namespace Line

def text : Line → List Char
  | header path => '[' :: (dotted path ++ [']', '\n'])
  | pair key text _ => key.toList ++ ' ' :: '=' :: ' ' :: (text ++ ['\n'])

/-- What a line does to the tables, and below which header the next line stands. -/
def apply (state : List String × Entries) : Line → Option (List String × Entries)
  | header path => (state.2.openTable path).map fun root => (path, root)
  | pair key _ v => (state.2.putBelow state.1 [key] v).map fun root => (state.1, root)

/-- A line can be read again. -/
def IsPlain : Line → Prop
  | header path => path ≠ [] ∧ path.length < depthLimit ∧ ∀ key ∈ path, IsBareKey key
  | pair key text v => IsBareKey key ∧ IsValueText text v

end Line

/-! ## Keys -/

theorem skipSpace_cons (h : isSpace c = false) : skipSpace (c :: rest) = c :: rest :=
  List.dropWhile_cons_of_neg (by simp [h])

/-- A character of a key is none of those by which lines are told apart. -/
theorem cons_ne_of_isBare {m : Char} (h : isBare c = true) (hm : isBare m = false) (rest' : List Char) :
    c :: cs ≠ m :: rest' := by
  intro heq
  rw [List.head_eq_of_cons_eq heq, hm] at h
  cases h

theorem isSpace_of_isBare (h : isBare c = true) : isSpace c = false := by
  cases hspace : isSpace c with
  | false => rfl
  | true =>
    rw [isSpace, Bool.or_eq_true, beq_iff_eq, beq_iff_eq] at hspace
    rcases hspace with rfl | rfl <;> exact absurd h (by decide)

theorem IsBareKey.exists_cons (h : IsBareKey key) : ∃ c cs, key.toList = c :: cs ∧ isBare c = true := by
  obtain ⟨c, cs, hkey⟩ := List.exists_cons_of_ne_nil h.1
  exact ⟨c, cs, hkey, h.2 c (hkey ▸ List.mem_cons_self)⟩

theorem readSimpleKey?_append (h : IsBareKey key) (hrest : ∀ c ∈ rest.head?, isBare c = false) :
    readSimpleKey? (key.toList ++ rest) = some (key, rest) := by
  obtain ⟨c, cs, hkey, hc⟩ := h.exists_cons
  obtain ⟨htake, hdrop⟩ := span_append h.2 hrest
  have hread : readSimpleKey? (key.toList ++ rest) = if ((key.toList ++ rest).takeWhile isBare).isEmpty then none
      else some (String.ofList ((key.toList ++ rest).takeWhile isBare), (key.toList ++ rest).dropWhile isBare) := by
    rw [hkey, List.cons_append, readSimpleKey?.eq_def]
    split
    · rename_i heq
      exact absurd heq (cons_ne_of_isBare hc (by decide) _)
    · rename_i heq
      exact absurd heq (cons_ne_of_isBare hc (by decide) _)
    · rfl
  rw [hread, htake, hdrop, if_neg (by simpa using h.1), String.ofList_toList]

/-- Keys with points between them are read up to what is no part of a key. -/
theorem readKeyParts?_dotted :
    ∀ {parts : List String} {fuel : Nat}, parts ≠ [] → parts.length ≤ fuel → (∀ key ∈ parts, IsBareKey key) →
      (∀ c ∈ rest.head?, isBare c = false) → (∀ rest', skipSpace rest ≠ '.' :: rest') →
      readKeyParts? fuel (dotted parts ++ rest) = some (parts, skipSpace rest)
  | [], _, h, _, _, _, _ => absurd rfl h
  | _ :: _, 0, _, h, _, _, _ => absurd h (by simp)
  | [key], fuel + 1, _, _, hkeys, hrest, hpoint => by
    have hkey := hkeys key List.mem_cons_self
    obtain ⟨c, cs, hcons, hc⟩ := hkey.exists_cons
    have hskip : skipSpace (key.toList ++ rest) = key.toList ++ rest := by
      rw [hcons, List.cons_append, skipSpace_cons (isSpace_of_isBare hc)]
    rw [dotted, readKeyParts?, hskip, readSimpleKey?_append hkey hrest]
    simp only [Option.bind_eq_bind, Option.bind_some]
    rfl
  | key :: key' :: parts, fuel + 1, _, hfuel, hkeys, hrest, hpoint => by
    have hkey := hkeys key List.mem_cons_self
    obtain ⟨c, cs, hcons, hc⟩ := hkey.exists_cons
    have hskip : ∀ cs', skipSpace (key.toList ++ cs') = key.toList ++ cs' := fun cs' => by
      rw [hcons, List.cons_append, skipSpace_cons (isSpace_of_isBare hc)]
    have hparts := readKeyParts?_dotted (List.cons_ne_nil key' parts) (Nat.le_of_succ_le_succ hfuel)
      (fun k hk => hkeys k (List.mem_cons_of_mem _ hk)) hrest hpoint
    rw [dotted, List.append_assoc, List.cons_append, readKeyParts?, hskip,
      readSimpleKey?_append hkey (by simp; decide)]
    simp only [Option.bind_eq_bind, Option.bind_some, skipSpace_cons (show isSpace '.' = false by decide), hparts]
    rfl
    · exact List.cons_ne_nil _ _

theorem exists_dotted_eq_cons (hne : parts ≠ []) (hkeys : ∀ key ∈ parts, IsBareKey key) :
    ∃ c cs, dotted parts = c :: cs ∧ isBare c = true := by
  obtain ⟨key, parts, rfl⟩ := List.exists_cons_of_ne_nil hne
  obtain ⟨c, cs, hcons, hc⟩ := (hkeys key List.mem_cons_self).exists_cons
  cases parts with
  | nil => exact ⟨c, cs, hcons, hc⟩
  | cons key' parts =>
    refine ⟨c, cs ++ '.' :: dotted (key' :: parts), ?_, hc⟩
    rw [dotted, hcons, List.cons_append]
    exact List.cons_ne_nil _ _

theorem length_le_dotted : ∀ parts : List String, parts.length ≤ (dotted parts).length + 1
  | [] => Nat.zero_le _
  | [_] => by simp
  | key :: key' :: parts => by
    have ih := length_le_dotted (key' :: parts)
    simp only [dotted, List.length_append, List.length_cons] at ih ⊢
    omega

theorem readKey?_dotted (hne : parts ≠ []) (hlength : parts.length < depthLimit) (hkeys : ∀ key ∈ parts, IsBareKey key)
    (hrest : ∀ c ∈ rest.head?, isBare c = false) (hpoint : ∀ rest', skipSpace rest ≠ '.' :: rest') :
    readKey? (dotted parts ++ rest) = some (parts, skipSpace rest) := by
  have hfuel : parts.length ≤ (dotted parts ++ rest).length + 1 := by
    have := length_le_dotted parts
    rw [List.length_append]
    omega
  rw [readKey?, readKeyParts?_dotted hne hfuel hkeys hrest hpoint]
  exact if_pos hlength

/-! ## Values -/

theorem readValue?_cons {levels : Nat} (hbracket : c ≠ '[') (hbrace : c ≠ '{') :
    readValue? (levels + 1) (c :: cs) = readScalar? (c :: cs) := by
  rw [readValue?]
  · exact fun _ heq => hbracket (List.head_eq_of_cons_eq heq)
  · exact fun _ heq => hbrace (List.head_eq_of_cons_eq heq)

/-- An integer is read as one if it fits 64 bits with a sign, and as no value else. -/
theorem readValue?_integer (n : Int) (hend : AtLineEnd rest) :
    readValue? (depthLimit - 1) (intDigits n ++ rest) = (fitting? n rest).map fun (n, rest) => (.integer n, rest) := by
  obtain ⟨d, ds, hn, hfirst, -⟩ := exists_intDigits_eq_cons n
  rw [← readScalar?_intDigits hend n, hn, List.cons_append]
  exact readValue?_cons (hfirst '[' (by decide) (by decide)) (hfirst '{' (by decide) (by decide))

theorem isSpace_of_head?_intDigits (n : Int) : ∀ c ∈ (intDigits n).head?, isSpace c = false := by
  obtain ⟨d, ds, hn, hfirst, -⟩ := exists_intDigits_eq_cons n
  rw [hn]
  rintro c hc
  cases hc
  rw [isSpace, beq_false_of_ne (hfirst ' ' (by decide) (by decide)),
    beq_false_of_ne (hfirst '\t' (by decide) (by decide))]
  rfl

theorem isValueText_integer {n : Int} (hlow : -0x8000000000000000 ≤ n) (hhigh : n ≤ 0x7fffffffffffffff) :
    IsValueText (intDigits n) (.integer n) := by
  refine ⟨isSpace_of_head?_intDigits n, fun rest => ?_⟩
  rw [readValue?_integer n (.lineBreak rest), fitting?, if_pos ⟨hlow, hhigh⟩]
  rfl

theorem isValueText_string {cs es : List Char} (h : WritesAll cs es) :
    IsValueText ('"' :: (es ++ ['"'])) (.text (String.ofList cs)) := by
  constructor
  · rintro c hc
    cases hc
    decide
  · intro rest
    rw [List.cons_append, List.append_assoc, ← readScalar?_writesAll h]
    exact readValue?_cons (by decide) (by decide)

/-! ## Lines -/

/-- Behind a key without quotes and an equals sign the value is read. -/
theorem readPair?_key {value : ValueReader} (hkey : IsBareKey key) (hcs : ∀ c ∈ cs.head?, isSpace c = false) :
    readPair? value (key.toList ++ ' ' :: '=' :: ' ' :: cs) = (value cs).map fun (v, rest) => (([key], v), rest) := by
  have hequals : skipSpace (' ' :: '=' :: ' ' :: cs) = '=' :: ' ' :: cs := rfl
  have hread := readKey?_dotted (List.cons_ne_nil key []) (by show 1 < 80; decide) (by simpa using hkey)
    (show ∀ c ∈ (' ' :: '=' :: ' ' :: cs).head?, isBare c = false by simp; decide)
    (by rw [hequals]; exact nofun)
  have hspace : skipSpace (' ' :: cs) = cs := by
    show skipSpace cs = _
    cases cs with
    | nil => rfl
    | cons c cs => exact skipSpace_cons (hcs c rfl)
  rw [hequals] at hread
  rw [readPair?, show dotted [key] = key.toList from rfl] at *
  rw [hread]
  simp only [Option.bind_eq_bind, Option.bind_some, hspace]
  rw [Option.map_eq_bind]
  rfl

/-- A line that starts with a key puts the value behind it under the key. -/
theorem readLines?_key (hkey : IsBareKey key) (hcs : ∀ c ∈ cs.head?, isSpace c = false) (fuel : Nat) :
    readLines? (fuel + 1) path root (key.toList ++ ' ' :: '=' :: ' ' :: cs) =
      (readValue? (depthLimit - 1) cs).bind fun (v, rest) => (readLineEnd? rest).bind fun rest =>
        (root.putBelow path [key] v).bind fun root => readLines? fuel path root rest := by
  obtain ⟨c, ks, hcons, hc⟩ := hkey.exists_cons
  have hpair : readPair? (readValue? (depthLimit - 1)) _ = _ := readPair?_key hkey hcs
  rw [readLines?]
  rw [hcons, List.cons_append] at hpair ⊢
  rw [skipSpace_cons (isSpace_of_isBare hc)]
  split
  · rename_i heq
    cases heq
  · rename_i heq
    exact absurd heq (cons_ne_of_isBare hc (by decide) _)
  · rename_i heq
    exact absurd heq (cons_ne_of_isBare hc (by decide) _)
  · rename_i heq
    exact absurd heq (cons_ne_of_isBare hc (by decide) _)
  · have hbreak : lineBreak? (c :: (ks ++ ' ' :: '=' :: ' ' :: cs)) = none := by
      rw [lineBreak?]
      · exact cons_ne_of_isBare hc (show isBare '\n' = false by decide)
      · exact fun _ => cons_ne_of_isBare hc (show isBare '\r' = false by decide) _
    rw [hbreak, hpair]
    exact Option.bind_map

/-- A line is read and does what it says; what is behind it is read after it. -/
theorem readLines?_text {line : Line} (hline : line.IsPlain) (fuel : Nat) (rest : List Char) :
    readLines? (fuel + 1) path root (line.text ++ rest) =
      (line.apply (path, root)).bind fun state => readLines? fuel state.1 state.2 rest := by
  cases line with
  | header path' =>
    obtain ⟨hne, hlength, hkeys⟩ := hline
    have hread := readKey?_dotted hne hlength hkeys
      (show ∀ c ∈ (']' :: '\n' :: rest).head?, isBare c = false by simp; decide)
      (show ∀ rest', skipSpace (']' :: '\n' :: rest) ≠ '.' :: rest' from nofun)
    rw [skipSpace_cons (by decide)] at hread
    have hbracket : ∀ rest', dotted path' ++ ']' :: '\n' :: rest ≠ '[' :: rest' := by
      obtain ⟨c, cs, hcons, hc⟩ := exists_dotted_eq_cons hne hkeys
      rw [hcons, List.cons_append]
      exact cons_ne_of_isBare hc (by decide)
    rw [show (Line.header path').text ++ rest = '[' :: (dotted path' ++ ']' :: '\n' :: rest) by simp [Line.text],
      readLines?, skipSpace_cons (by decide)]
    -- the first key does not start with a second bracket
    split
    · rename_i heq
      cases heq
    · rename_i heq
      cases List.head_eq_of_cons_eq heq
    · rename_i heq
      exact absurd (List.tail_eq_of_cons_eq heq) (hbracket _)
    · rename_i heq
      rw [← List.tail_eq_of_cons_eq heq, hread]
      simp only [Option.bind_eq_bind, Option.bind_some]
      show ((root.openTable path').bind fun root => _) = _
      rw [Line.apply, Option.bind_map]
      rfl
    · rename_i heq
      exact absurd rfl (heq _)
  | pair key text v =>
    obtain ⟨hkey, hhead, hvalue⟩ := hline
    have hcs : ∀ c ∈ (text ++ '\n' :: rest).head?, isSpace c = false := by
      cases text with
      | nil => simp; decide
      | cons c text => exact hhead
    rw [show (Line.pair key text v).text ++ rest = key.toList ++ ' ' :: '=' :: ' ' :: (text ++ '\n' :: rest) by
      simp [Line.text], readLines?_key hkey hcs, hvalue]
    show ((root.putBelow path [key] v).bind fun root => _) = _
    rw [Line.apply, Option.bind_map]
    rfl

/-- A document of lines is read line by line. -/
theorem readLines?_lines {lines : List Line} {fuel : Nat} (hfuel : lines.length < fuel)
    (hlines : ∀ line ∈ lines, line.IsPlain) :
    readLines? fuel path root (lines.flatMap Line.text) = (lines.foldlM Line.apply (path, root)).map Prod.snd := by
  induction lines generalizing fuel path root with
  | nil =>
    obtain ⟨fuel, rfl⟩ := Nat.exists_eq_succ_of_ne_zero (Nat.ne_zero_of_lt hfuel)
    rfl
  | cons line lines ih =>
    obtain ⟨fuel, rfl⟩ := Nat.exists_eq_succ_of_ne_zero (Nat.ne_zero_of_lt hfuel)
    rw [List.flatMap_cons, readLines?_text (hlines line List.mem_cons_self), List.foldlM_cons, Option.bind_eq_bind,
      Option.map_bind]
    congr 1
    funext state
    exact ih (Nat.lt_of_succ_lt_succ hfuel) fun line' hline' => hlines line' (List.mem_cons_of_mem _ hline')

theorem length_le_flatMap_text : ∀ lines : List Line, lines.length ≤ (lines.flatMap Line.text).length
  | [] => Nat.le_refl _
  | line :: lines => by
    have ih := length_le_flatMap_text lines
    have hpos : 0 < line.text.length := by
      cases line with
      | header path => exact Nat.succ_pos _
      | pair key text v =>
        rw [Line.text, List.length_append]
        exact Nat.add_pos_right _ (Nat.succ_pos _)
    rw [List.flatMap_cons, List.length_append, List.length_cons]
    omega

/-- Reading a document takes its lines one after the other. -/
theorem read?_lines {lines : List Line} (hlines : ∀ line ∈ lines, line.IsPlain) :
    Toml.read? (lines.flatMap Line.text) =
      (lines.foldlM Line.apply ([], [])).map fun state => .table (closeEntries state.2) := by
  have hread : readLines? ((lines.flatMap Line.text).length + 1) [] [] (lines.flatMap Line.text) =
      (lines.foldlM Line.apply ([], [])).map Prod.snd :=
    readLines?_lines (Nat.lt_succ_of_le (length_le_flatMap_text lines)) hlines
  -- no line starts with a byte order mark
  have hmark : ∀ rest, lines.flatMap Line.text ≠ '\ufeff' :: rest := by
    intro rest
    cases lines with
    | nil => exact nofun
    | cons line lines =>
      rw [List.flatMap_cons]
      have hline := hlines line List.mem_cons_self
      cases line with
      | header path => exact fun heq => absurd (List.head_eq_of_cons_eq heq) (by decide)
      | pair key text v =>
        obtain ⟨c, cs, hcons, hc⟩ := hline.1.exists_cons
        rw [Line.text, hcons, List.cons_append, List.cons_append]
        exact cons_ne_of_isBare hc (by decide) rest
  unfold Toml.read?
  simp only [hread, Option.map_map]
  rfl

end Fixtures.Toml
