/-
The text of CSV as a whole: fields, in quotes where they need them, with commas between, and an end of
line behind each record. The tokens in which it is written make up this text.
-/
import Fixtures.Csv.Record

namespace Fixtures.Csv

/-! ## The text -/

/-- A field with its quotes doubled. -/
def doubled (field : List Char) : List Char := field.flatMap fun c => if c = '"' then ['"', '"'] else [c]

def fieldText (field : List Char) : List Char :=
  if isQuoted field then '"' :: doubled field ++ ['"'] else field

/-- The text of a record without its end. -/
def lineText (fields : List (List Char)) : List Char := [','].intercalate (fields.map fieldText)

/-- The text of a record. -/
def recordText (fields : List (List Char)) : List Char :=
  (if fields = [] ∨ fields = [[]] then ['"', '"'] else lineText fields) ++ ['\r', '\n']

/-- The text of a header and records below it. -/
def text (header : List (List Char)) (records : List Record) : List Char :=
  recordText header ++ records.flatMap fun r => recordText r.fields

/-! ## Its tokens -/

/-- The characters of tokens. -/
def charsOf (tokens : List Token) : List Char := tokens.flatMap Token.chars

@[simp] theorem charsOf_nil : charsOf [] = [] := rfl

@[simp] theorem charsOf_cons (t : Token) (ts : List Token) : charsOf (t :: ts) = t.chars ++ charsOf ts :=
  List.flatMap_cons

@[simp] theorem charsOf_append (ts us : List Token) : charsOf (ts ++ us) = charsOf ts ++ charsOf us :=
  List.flatMap_append

theorem charsOf_quotedTokens : ∀ (run field : List Char),
    charsOf (quotedTokens run field) = run.reverse ++ doubled field
  | run, [] => by simp [quotedTokens, Token.chars, doubled]
  | run, c :: rest => by
    rw [quotedTokens, doubled, List.flatMap_cons, ← doubled]
    split
    · simp [Token.chars, charsOf_quotedTokens [] rest]
    · simp [charsOf_quotedTokens (c :: run) rest]

theorem charsOf_openTokens (field : List Char) :
    charsOf (openTokens field) ++ charsOf (closeTokens field) = fieldText field := by
  unfold openTokens closeTokens fieldText
  split <;> simp [Token.chars, charsOf_quotedTokens]

/-- The closing quote of the last field is the first of the tokens behind the fields. -/
theorem charsOf_fieldTokens : ∀ (field : List Char) (rest : List (List Char)),
    charsOf (fieldTokens (field :: rest)) ++ charsOf (closeTokens ((field :: rest).getLast (by simp))) =
      lineText (field :: rest)
  | field, [] => by simp [fieldTokens, lineText, charsOf_openTokens]
  | field, next :: rest => by
    rw [fieldTokens, charsOf_append, charsOf_append, charsOf_openTokens, charsOf_cons, List.getLast_cons (by simp),
      List.append_assoc, List.append_assoc, charsOf_fieldTokens next rest]
    · simp [lineText, Token.chars]
    · simp

theorem charsOf_record (fields : List (List Char)) :
    charsOf (fieldTokens fields ++ endTokens fields) = recordText fields := by
  cases fields with
  | nil => simp [fieldTokens, endTokens, recordText, Token.chars]
  | cons field rest =>
    have hline := charsOf_fieldTokens field rest
    rw [charsOf_append, endTokens, List.getLast?_eq_some_getLast (by simp)]
    simp only [charsOf_append]
    rw [← List.append_assoc, ← List.append_assoc, hline, recordText]
    split
    · rename_i hempty
      rw [hempty.resolve_left (by simp)]
      simp [lineText, fieldText, isQuoted, Token.chars]
    · simp [Token.chars]

/-- Complete records with as many fields as there are columns are written as a whole. -/
theorem recordTokens_spec {columns : Nat} : ∀ {records : List Record},
    (∀ r ∈ records, r.complete = true ∧ r.fields.length = columns) →
      (recordTokens columns records).2 = none ∧
        charsOf (recordTokens columns records).1 = records.flatMap fun r => recordText r.fields
  | [], _ => ⟨rfl, rfl⟩
  | r :: rest, h => by
    obtain ⟨hcomplete, hlength⟩ := h r List.mem_cons_self
    obtain ⟨herror, hrest⟩ := recordTokens_spec fun r' hr' => h r' (List.mem_cons_of_mem r hr')
    rw [recordTokens, hcomplete, if_neg (by simp), if_neg (by simp [hlength])]
    refine ⟨herror, ?_⟩
    simp only
    rw [charsOf_append, charsOf_record, hrest, List.flatMap_cons]

/-- The records are written as a whole only if all of them are complete and have as many fields as there
are columns. -/
theorem recordTokens_error {columns : Nat} : ∀ {records : List Record}, (recordTokens columns records).2 = none →
    ∀ r ∈ records, r.complete = true ∧ r.fields.length = columns
  | [], _, _, hr => absurd hr List.not_mem_nil
  | r :: rest, h, r', hr' => by
    rw [recordTokens] at h
    split at h
    · cases h
    rename_i hcomplete
    split at h
    · cases h
    rename_i hlength
    rcases List.mem_cons.1 hr' with rfl | hr'
    · exact ⟨by simpa using hcomplete, by simpa using hlength⟩
    · exact recordTokens_error h r' hr'

theorem tokens_spec {header : List (List Char)} {records : List Record}
    (h : ∀ r ∈ records, r.complete = true ∧ r.fields.length = header.length) :
    (tokens header records).2 = none ∧ charsOf (tokens header records).1 = text header records := by
  have hall : ∀ r ∈ ⟨header, true⟩ :: records, r.complete = true ∧ r.fields.length = header.length := by
    intro r hr
    rcases List.mem_cons.1 hr with rfl | hr
    · exact ⟨rfl, rfl⟩
    · exact h r hr
  exact recordTokens_spec hall

theorem tokens_error {header : List (List Char)} {records : List Record} (h : (tokens header records).2 = none) :
    ∀ r ∈ records, r.complete = true ∧ r.fields.length = header.length :=
  fun r hr => recordTokens_error h r (List.mem_cons_of_mem _ hr)

end Fixtures.Csv
