/-
Reading CSV as RFC 4180 has it: commas between fields, quotes doubled within quotes, CR LF behind a
record, and blank records kept. The reader takes character after character and tells besides the fields
which of them stood in quotes, and which records were ended. Of a text that was written it reads the
fields that were written.
-/
import Fixtures.Proofs.Csv.Text

namespace Fixtures.Csv

/-! ## The reader -/

/-- A field as it was read. -/
structure Cell where
  quoted : Bool
  text : List Char
  deriving DecidableEq

/-- A record as it was read; only the last one may lack its end. -/
structure Line where
  cells : List Cell
  ended : Bool
  deriving DecidableEq

/-- The texts of the fields of a record. -/
def Line.texts (line : Line) : List (List Char) := line.cells.map Cell.text

/-- Where in a record a reader is. -/
inductive Place where
  /-- At the start of a field. -/
  | start
  /-- Within a field without quotes. -/
  | plain
  /-- Within quotes. -/
  | quoted
  /-- Behind a quote that closes the field, unless another one follows. -/
  | closed
  /-- Between the two characters of a line end. -/
  | ending
  deriving DecidableEq

/-- What was read so far: whole records, whole fields of the next one, and the text of the next field. -/
structure Reading where
  lines : List Line := []
  cells : List Cell := []
  place : Place := .start
  text : List Char := []
  deriving DecidableEq

namespace Reading

/-- The field that is being read. -/
def cell (r : Reading) : Cell := ⟨r.place = .closed, r.text⟩

/-- The reading once the field is at its end. -/
def nextField (r : Reading) (place : Place) : Reading :=
  { r with cells := r.cells ++ [r.cell], place := place, text := [] }

/-- Reads a character. -/
def advance (r : Reading) (c : Char) : Option Reading :=
  match r.place with
  | .quoted => some (if c = '"' then { r with place := .closed } else { r with text := r.text ++ [c] })
  | .ending => if c = '\n' then some { lines := r.lines ++ [⟨r.cells, true⟩] } else none
  | place =>
    if c = ',' then some (r.nextField .start)
    else if c = '\r' then some (r.nextField .ending)
    else if c = '\n' then none
    else if c = '"' then
      match place with
      | .start => some { r with place := .quoted }
      | .closed => some { r with place := .quoted, text := r.text ++ ['"'] }
      | _ => none
    else if place = .closed then none
    else some { r with place := .plain, text := r.text ++ [c] }

/-- The records of a text that ends here. Nothing behind a line end is no record. -/
def finish (r : Reading) : Option (List Line) :=
  match r.place with
  | .quoted | .ending => none
  | _ =>
    if r.cells = [] ∧ r.cell = ⟨false, []⟩ then some r.lines
    else some (r.lines ++ [⟨r.cells ++ [r.cell], false⟩])

/-- Reads characters one after the other. -/
def run (r : Reading) (cs : List Char) : Option Reading := cs.foldlM advance r

end Reading

/-- Reads a text, record by record. -/
def read? (cs : List Char) : Option (List Line) := (Reading.run {} cs).bind Reading.finish

/-! ## Fields -/

/-- A field as it is read from its text. -/
def cellOf (field : List Char) : Cell := ⟨isQuoted field, field⟩

namespace Reading

variable {lines : List Line} {cells : List Cell} {place : Place} {text : List Char} {c : Char}

@[simp] theorem run_nil (r : Reading) : r.run [] = some r := rfl

@[simp] theorem run_cons (r : Reading) (c : Char) (cs : List Char) : r.run (c :: cs) = (r.advance c).bind (·.run cs) :=
  List.foldlM_cons

theorem run_append (r : Reading) (cs ds : List Char) : r.run (cs ++ ds) = (r.run cs).bind (·.run ds) :=
  List.foldlM_append

/-- Within quotes a field is read from its text with the quotes doubled. -/
theorem run_doubled : ∀ (field text : List Char),
    run ⟨lines, cells, .quoted, text⟩ (doubled field) = some ⟨lines, cells, .quoted, text ++ field⟩
  | [], text => by simp [doubled]
  | c :: rest, text => by
    rw [doubled, List.flatMap_cons, ← doubled, run_append]
    by_cases hc : c = '"'
    · -- the first quote seems to close the field, and the second one opens it again
      subst hc
      rw [if_pos rfl]
      show run ⟨lines, cells, .quoted, text ++ ['"']⟩ (doubled rest) = _
      rw [run_doubled rest, List.append_assoc, List.singleton_append]
    · have hadvance : advance ⟨lines, cells, .quoted, text⟩ c = some ⟨lines, cells, .quoted, text ++ [c]⟩ := by
        simp [advance, hc]
      rw [if_neg hc, run_cons, hadvance, Option.bind_some, run_nil, Option.bind_some, run_doubled rest,
        List.append_assoc, List.singleton_append]

theorem advance_plain (hplace : place = .start ∨ place = .plain) (hc : isSpecial c = false) :
    advance ⟨lines, cells, place, text⟩ c = some ⟨lines, cells, .plain, text ++ [c]⟩ := by
  simp only [isSpecial, Bool.or_eq_false_iff, beq_eq_false_iff_ne] at hc
  obtain ⟨⟨⟨hcomma, hquote⟩, hreturn⟩, hnewline⟩ := hc
  rcases hplace with rfl | rfl <;> simp [advance, hcomma, hquote, hreturn, hnewline]

/-- A field without special characters is read as it is. -/
theorem run_plain : ∀ (field : List Char) {place : Place} {text : List Char}, place = .start ∨ place = .plain →
    field ≠ [] → isQuoted field = false →
      run ⟨lines, cells, place, text⟩ field = some ⟨lines, cells, .plain, text ++ field⟩
  | [], _, _, _, h, _ => absurd rfl h
  | c :: rest, place, text, hplace, _, hquoted => by
    rw [isQuoted, List.any_cons, ← isQuoted, Bool.or_eq_false_iff] at hquoted
    obtain ⟨hc, hrest⟩ := hquoted
    rw [run_cons, advance_plain hplace hc, Option.bind_some]
    cases rest with
    | nil => rfl
    | cons d rest => rw [run_plain (d :: rest) (.inr rfl) (by simp) hrest, List.append_assoc, List.singleton_append]

/-- Where a reader is behind the text of a field. -/
def placeBehind (field : List Char) : Place :=
  if isQuoted field then .closed else if field = [] then .start else .plain

theorem run_fieldText (field : List Char) :
    run ⟨lines, cells, .start, []⟩ (fieldText field) = some ⟨lines, cells, placeBehind field, field⟩ := by
  unfold fieldText placeBehind
  split
  · show run ⟨lines, cells, .quoted, []⟩ (doubled field ++ ['"']) = _
    rw [run_append, run_doubled, Option.bind_some]
    rfl
  · rename_i hquoted
    split
    · subst_vars; rfl
    · exact run_plain field (.inl rfl) (by assumption) (by simpa using hquoted)

/-! ## Records -/

theorem cell_behind (field : List Char) : cell ⟨lines, cells, placeBehind field, field⟩ = cellOf field := by
  have hclosed : placeBehind field = .closed ↔ isQuoted field = true := by
    unfold placeBehind
    cases isQuoted field with
    | true => simp
    | false => by_cases hempty : field = [] <;> simp [hempty]
  unfold cell cellOf
  simp [hclosed]

/-- Behind its text a field may end with a comma or with the record. -/
theorem advance_separator (field : List Char) :
    advance ⟨lines, cells, placeBehind field, field⟩ ',' = some ⟨lines, cells ++ [cellOf field], .start, []⟩ ∧
      advance ⟨lines, cells, placeBehind field, field⟩ '\r' = some ⟨lines, cells ++ [cellOf field], .ending, []⟩ := by
  have hcell : cell ⟨lines, cells, placeBehind field, field⟩ = cellOf field := cell_behind field
  rw [← hcell]
  unfold placeBehind
  split
  · exact ⟨rfl, rfl⟩
  · split <;> exact ⟨rfl, rfl⟩

theorem run_lineText : ∀ (field : List Char) (rest : List (List Char)) (cells : List Cell),
    run ⟨lines, cells, .start, []⟩ (lineText (field :: rest) ++ ['\r', '\n']) =
      some { lines := lines ++ [⟨cells ++ (field :: rest).map cellOf, true⟩] }
  | field, [], cells => by
    have hline : lineText [field] = fieldText field := by simp [lineText]
    rw [hline, run_append, run_fieldText, Option.bind_some, run_cons, (advance_separator field).2, Option.bind_some]
    rfl
  | field, next :: rest, cells => by
    have hline : lineText (field :: next :: rest) = fieldText field ++ ',' :: lineText (next :: rest) := by
      simp [lineText]
    rw [hline, List.append_assoc, run_append, run_fieldText, Option.bind_some, List.cons_append, run_cons,
      (advance_separator field).1, Option.bind_some, run_lineText next rest, List.append_assoc]
    rfl

end Reading

/-- A record as it is read from its text: quotes stand around a field with special characters, and
around the only field of a record if it is empty. -/
def lineOf (fields : List (List Char)) : Line :=
  ⟨if fields = [[]] then [⟨true, []⟩] else fields.map cellOf, true⟩

theorem texts_lineOf (fields : List (List Char)) : (lineOf fields).texts = fields := by
  unfold lineOf Line.texts
  split
  · subst_vars; rfl
  · simp [cellOf, Function.comp_def]

/-- The quoted fields of a record are those with special characters, unless it consists of one empty field. -/
theorem quoted_iff_special {fields : List (List Char)} :
    (∀ cell ∈ (lineOf fields).cells,
      (cell.quoted = true ↔ ∃ c ∈ cell.text, c = ',' ∨ c = '"' ∨ c = '\r' ∨ c = '\n')) ↔ fields ≠ [[]] := by
  unfold lineOf
  split
  · simp_all
  · rename_i hne
    refine iff_of_true (fun cell hcell => ?_) hne
    obtain ⟨field, -, rfl⟩ := List.mem_map.1 hcell
    simp [cellOf, isQuoted, isSpecial, or_assoc]

theorem run_recordText {fields : List (List Char)} (h : fields ≠ []) (lines : List Line) :
    Reading.run { lines := lines } (recordText fields) = some { lines := lines ++ [lineOf fields] } := by
  unfold recordText lineOf
  by_cases hempty : fields = [[]]
  · rw [if_pos (.inr hempty), if_pos hempty]
    rfl
  · rw [if_neg (not_or.2 ⟨h, hempty⟩), if_neg hempty]
    obtain ⟨field, rest, rfl⟩ := List.exists_cons_of_ne_nil h
    exact Reading.run_lineText field rest []

/-! ## Texts -/

theorem run_records : ∀ {records : List Record} {lines : List Line}, (∀ r ∈ records, r.fields ≠ []) →
    Reading.run { lines := lines } (records.flatMap fun r => recordText r.fields) =
      some { lines := lines ++ records.map fun r => lineOf r.fields }
  | [], lines, _ => by simp
  | r :: rest, lines, h => by
    have hrest : ∀ r' ∈ rest, r'.fields ≠ [] := fun r' hr' => h r' (List.mem_cons_of_mem r hr')
    rw [List.flatMap_cons, Reading.run_append, run_recordText (h r List.mem_cons_self), Option.bind_some,
      run_records hrest]
    simp

/-- The text of a header and records below it is read as they are, if all have fields. -/
theorem read?_text {header : List (List Char)} {records : List Record} (hheader : header ≠ [])
    (hrecords : ∀ r ∈ records, r.fields ≠ []) :
    read? (text header records) = some (lineOf header :: records.map fun r => lineOf r.fields) := by
  unfold read? text
  rw [Reading.run_append, run_recordText hheader, Option.bind_some, run_records hrecords]
  rfl

end Fixtures.Csv
