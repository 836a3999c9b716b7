/-
Rows in files. Records of CSV that have as many fields as the header are written to any file that can be
opened and has no hitches; and what was written is read back as it was, also where a hitch came between.
-/
import Fixtures.Csv.Row
import Fixtures.Proofs.Csv.Reader
import Fixtures.Proofs.Output.Ready
import Fixtures.Proofs.Output.Writers
import Fixtures.Proofs.Text.Bytes

namespace Fixtures

open LawfulSink ReadySink FileOutput

variable {p : Path} {fs fs' fs'' : FileSystem} {o : FileOutput} {header : List (List Char)} {records : List Csv.Record}
  {n : UInt64}

/-! ## Success -/

/-- A success has taken all tokens, none of which was refused. -/
theorem took_of_writeCsv (hcreate : create p fs = (.ok o, fs')) (h : writeCsv p header records fs = (.ok n, fs'')) :
    (Csv.tokens header records).2 = none ∧
      ∃ o', Took o (encodeText (Csv.charsOf (Csv.tokens header records).1)) o' ∧ o'.complete = (.ok n, fs'') := by
  unfold writeCsv at h
  rw [hcreate] at h
  rcases htokens : Csv.tokens header records with ⟨tokens, error⟩
  have hput := Csv.Blocks.collected_putAll ⟨o, .empty⟩ tokens
  simp only [htokens] at h
  rcases hp : Csv.Blocks.putAll ⟨o, .empty⟩ tokens with ⟨e | _, b⟩ <;> rw [hp] at hput h
  · cases h
  cases error with
  | some e => cases h
  | none =>
    obtain ⟨hpass, hempty⟩ := b.pass_spec
    simp only at h
    rcases hb : b.pass with ⟨e | _, b'⟩ <;> rw [hb] at hpass h
    · cases h
    have hall := hput.trans_nothing hpass
    rw [hempty hb] at hall
    exact ⟨rfl, b'.sink, hall.took, h⟩

theorem writeCsv_of_ready (hcreate : create p fs = (.ok o, fs')) (hready : Ready o)
    (herror : (Csv.tokens header records).2 = none) : ∃ n fs'', writeCsv p header records fs = (.ok n, fs'') := by
  obtain ⟨b, hput, hready⟩ := Csv.Blocks.putAll_of_ready (b := ⟨o, .empty⟩) hready (Csv.tokens header records).1
  obtain ⟨b', hpass, hready⟩ := Csv.Blocks.pass_of_ready hready
  obtain ⟨n, fs'', hcomplete⟩ := complete_of_ready hready
  refine ⟨n, fs'', ?_⟩
  unfold writeCsv
  rcases htokens : Csv.tokens header records with ⟨tokens, error⟩
  rw [htokens] at herror hput
  cases herror
  rw [hcreate]
  simp only [hput, hpass, hcomplete]

/-- A success is one on a file, and of records that have as many fields as the header. -/
theorem fit_of_writeCsv (hcreate : create p fs = (.ok o, fs')) (h : writeCsv p header records fs = (.ok n, fs'')) :
    fs'.isFull p = false ∧ ∀ r ∈ records, r.complete = true ∧ r.fields.length = header.length := by
  obtain ⟨f, rfl, hfull, -⟩ := create_ready hcreate
  obtain ⟨herror, o', htook, hcomplete⟩ := took_of_writeCsv hcreate h
  have hrecords := Csv.tokens_error herror
  refine ⟨?_, hrecords⟩
  cases hpath : fs'.isFull p with
  | false => rfl
  | true =>
    -- the text is never empty, so a device that takes no byte has not taken it
    have hspec := complete_spec htook
    rw [hcomplete] at hspec
    obtain ⟨-, f', htook', -⟩ := hspec
    obtain ⟨hempty, -⟩ := OpenFile.took_of_full (hfull hpath) htook' []
    rw [encodeText_eq_empty, (Csv.tokens_spec hrecords).2, Csv.text, Csv.recordText] at hempty
    simp at hempty

theorem writeCsv_of_fit (hcreate : create p fs = (.ok o, fs')) (hhitches : fs.hitches = [])
    (hpath : fs'.isFull p = false) (hfit : ∀ r ∈ records, r.complete = true ∧ r.fields.length = header.length) :
    ∃ n fs'', writeCsv p header records fs = (.ok n, fs'') := by
  obtain ⟨f, rfl, -, hready⟩ := create_ready hcreate
  exact writeCsv_of_ready hcreate (hready hhitches hpath) (Csv.tokens_spec hfit).1

/-! ## Ledger rows -/

namespace LedgerRow

theorem all_fit_iff {header : List (List Char)} {rows : List LedgerRow} :
    (∀ r ∈ rows.map toCsv, r.complete = true ∧ r.fields.length = header.length) ↔ rows = [] ∨ header.length = 6 := by
  constructor
  · intro h
    cases rows with
    | nil => exact .inl rfl
    | cons r rest => exact .inr (h r.toCsv (by simp)).2.symm
  · rintro (rfl | hlength) r hr
    · simp at hr
    · obtain ⟨row, -, rfl⟩ := List.mem_map.1 hr
      exact ⟨rfl, hlength.symm⟩

/-- Rows below a header, at a path that can be opened. They are written if the path leads to a file that takes what it
is given, and the header has a column for each of the six fields unless there is no row. What is written is read as
the header and the rows, record by record, each ended. The quoted fields are those with a comma, a quote or a
character of a line end, if and only if the file does not consist of a header of one empty field. -/
theorem written_and_read (hopen : create p fs = (.ok o, fs')) (header : List String) (rows : List LedgerRow) :
    (fs.hitches = [] → fs'.isFull p = false → rows = [] ∨ header.length = 6 →
      ∃ n fs'', writeCsv p (header.map String.toList) (rows.map toCsv) fs = (.ok n, fs'')) ∧
    ∀ n fs'', writeCsv p (header.map String.toList) (rows.map toCsv) fs = (.ok n, fs'') →
      (rows = [] ∨ header.length = 6) ∧ (header ≠ [] →
        ∃ content lines, fs''.readText p = .ok content ∧ Csv.read? content.toList = some lines ∧
          lines.map Csv.Line.texts = header.map String.toList :: rows.map (fun r => r.toCsv.fields) ∧
          (∀ line ∈ lines, line.ended = true) ∧
          ((∀ line ∈ lines, ∀ cell ∈ line.cells,
              (cell.quoted = true ↔ ∃ c ∈ cell.text, c = ',' ∨ c = '"' ∨ c = '\r' ∨ c = '\n')) ↔
            ¬ (header = [""] ∧ rows = []))) := by
  have hfit : (∀ r ∈ rows.map toCsv, r.complete = true ∧ r.fields.length = (header.map String.toList).length) ↔
      rows = [] ∨ header.length = 6 := by
    rw [all_fit_iff, List.length_map]
  refine ⟨fun hhitches hpath h => writeCsv_of_fit hopen hhitches hpath (hfit.2 h), fun n fs'' hwrite => ?_⟩
  obtain ⟨-, hrecords⟩ := fit_of_writeCsv hopen hwrite
  refine ⟨hfit.1 hrecords, fun hheader => ?_⟩
  -- a success has stored the text, and the text is read back
  have hstores := stores_writeCsv p fs hrecords
  rw [hwrite] at hstores
  have hread : Csv.read? (Csv.text (header.map String.toList) (rows.map toCsv)) =
      some (Csv.lineOf (header.map String.toList) :: (rows.map toCsv).map fun r => Csv.lineOf r.fields) :=
    Csv.read?_text (by simpa using hheader) (by simp [toCsv])
  refine ⟨_, _, readText_encodeText hstores.1, by rw [String.toList_ofList]; exact hread, ?_, ?_, ?_⟩
  · simp [Csv.texts_lineOf, Function.comp_def]
  · simp [Csv.lineOf]
  · have hempty : header.map String.toList ≠ [[]] ↔ ¬ (header = [""] ∧ rows = []) := by
      have htexts : header.map String.toList = [""].map String.toList ↔ header = [""] :=
        List.map_inj_right fun _ _ => String.toList_inj.1
      refine not_congr (htexts.trans ?_)
      refine ⟨fun hsingle => ⟨hsingle, (hfit.1 hrecords).resolve_right ?_⟩, And.left⟩
      rw [hsingle]
      decide
    -- a row has six fields, so only the header can consist of an empty one
    rw [List.forall_mem_cons, Csv.quoted_iff_special, hempty]
    refine and_iff_left fun line hline => ?_
    obtain ⟨r, hr, rfl⟩ := List.mem_map.1 hline
    obtain ⟨row, -, rfl⟩ := List.mem_map.1 hr
    exact Csv.quoted_iff_special.2 (by simp [toCsv])

/-- A row whose texts hold a comma, quotes and a line end, below the standard header in an empty directory. -/
theorem written_and_read_special :
    let row : LedgerRow := ⟨"2024-02-29", "Ada, \"A\"", "one\r\ntwo", -5, ⟨0x3fe0000000000000⟩, ⟨0⟩⟩
    let p : Path := .ofText "rows.csv"
    let opened : FileSystem := { entries := [(.ofTexts ["rows.csv"], .file .empty)], workDir := [] }
    FileOutput.create p { entries := [], workDir := [] } = (.ok (ofFile ⟨opened, .ofTexts ["rows.csv"]⟩), opened) ∧
      ∃ n fs content lines,
        writeCsv p (LedgerRow.header.map String.toList) ([row].map toCsv) { entries := [], workDir := [] } =
            (.ok n, fs) ∧
          fs.readText p = .ok content ∧ Csv.read? content.toList = some lines ∧
          lines.map Csv.Line.texts = LedgerRow.header.map String.toList :: [row].map (fun r => r.toCsv.fields) ∧
          ∀ line ∈ lines, ∀ cell ∈ line.cells,
            (cell.quoted = true ↔ ∃ c ∈ cell.text, c = ',' ∨ c = '"' ∨ c = '\r' ∨ c = '\n') := by
  intro row p opened
  have hopen : FileOutput.create p { entries := [], workDir := [] } =
      (.ok (ofFile ⟨opened, .ofTexts ["rows.csv"]⟩), opened) := by rfl
  obtain ⟨hwritten, hread⟩ := written_and_read hopen LedgerRow.header [row]
  obtain ⟨n, fs, hwrite⟩ := hwritten rfl rfl (.inr rfl)
  obtain ⟨content, lines, hcontent, hlines, htexts, -, hquoted⟩ := (hread n fs hwrite).2 (by simp [LedgerRow.header])
  exact ⟨hopen, n, fs, content, lines, hwrite, hcontent, hlines, htexts, hquoted.2 (by simp)⟩

/-- The empty field of a header without further fields is quoted, though there is no special character in it. -/
theorem empty_field_quoted :
    let p : Path := .ofText "h"
    ∃ n fs content lines,
      writeCsv p ([""].map String.toList) ([].map toCsv) { entries := [], workDir := [] } = (.ok n, fs) ∧
        fs.readText p = .ok content ∧ Csv.read? content.toList = some lines ∧
        ¬ ∀ line ∈ lines, ∀ cell ∈ line.cells,
          (cell.quoted = true ↔ ∃ c ∈ cell.text, c = ',' ∨ c = '"' ∨ c = '\r' ∨ c = '\n') := by
  intro p
  have hopen : FileOutput.create p { entries := [], workDir := [] } =
      (.ok (ofFile ⟨{ entries := [(.ofTexts ["h"], .file .empty)], workDir := [] }, .ofTexts ["h"]⟩),
        { entries := [(.ofTexts ["h"], .file .empty)], workDir := [] }) := rfl
  have hfit : ∀ r ∈ [].map toCsv, r.complete = true ∧ r.fields.length = ([""].map String.toList).length := by simp
  obtain ⟨n, fs, hwrite⟩ := writeCsv_of_fit hopen rfl rfl hfit
  have hstores := stores_writeCsv p { entries := [], workDir := [] } hfit
  rw [hwrite] at hstores
  refine ⟨n, fs, _, [⟨[⟨true, []⟩], true⟩], hwrite, readText_encodeText hstores.1, by decide, ?_⟩
  simp

end LedgerRow

end Fixtures
