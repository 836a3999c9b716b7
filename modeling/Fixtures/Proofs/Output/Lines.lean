/-
Documents on a line each. No document has an end of line within it, so the ends of line in a file are those
that were written behind the documents: its bytes fall into the lines again, and each line is read back on its
own.
-/
import Fixtures.Proofs.Document.Reading
import Fixtures.Proofs.Json.Characters
import Fixtures.Proofs.Output.Writers
import Fixtures.Proofs.Text.Bytes

namespace Fixtures

namespace Json

/-- The bytes of the line of a document. -/
def lineBytes (j : Json) : List UInt8 := j.compact.toUTF8.data.toList

theorem le_of_mem_lineBytes {j : Json} (hj : j.WellFormed) {b : UInt8} (hb : b ∈ j.lineBytes) : 32 ≤ b.toNat := by
  refine le_of_mem_encodeText (fun c hc => ?_) hb
  rw [text_eq] at hc
  exact le_of_mem_textAt 0 hj hc

end Json

/-! ## Lines -/

/-- The byte that ends a line. -/
def lineFeed : UInt8 := 10

section Lines

variable {documents : List Json}

theorem toList_linesText (documents : List Json) :
    (encodeText (linesText documents)).data.toList = documents.flatMap fun j => j.lineBytes ++ [lineFeed] := by
  have hline (j : Json) : j.lineBytes ++ [lineFeed] = (j.text .compact ++ ['\n']).flatMap String.utf8EncodeChar := by
    rw [List.flatMap_append, ← toList_encodeText]
    rfl
  rw [toList_encodeText, linesText, List.flatMap_assoc]
  simp only [hline]

theorem lineFeed_notMem_lineBytes {j : Json} (hj : j.WellFormed) : lineFeed ∉ j.lineBytes := fun h =>
  absurd (Json.le_of_mem_lineBytes hj h) (by decide)

/-- The bytes fall into the lines, and the last end of line is followed by nothing. -/
theorem splitOn_linesText (h : ∀ j ∈ documents, j.WellFormed) :
    (encodeText (linesText documents)).data.toList.splitOn lineFeed = documents.map Json.lineBytes ++ [[]] := by
  rw [toList_linesText]
  induction documents with
  | nil => rfl
  | cons j rest ih =>
    obtain ⟨hj, hrest⟩ := List.forall_mem_cons.1 h
    rw [List.flatMap_cons, List.append_assoc, List.singleton_append,
      List.splitOn_append_cons_self_of_not_mem (lineFeed_notMem_lineBytes hj), ih hrest]
    rfl

theorem count_linesText (h : ∀ j ∈ documents, j.WellFormed) :
    (encodeText (linesText documents)).data.toList.count lineFeed = documents.length := by
  rw [toList_linesText]
  induction documents with
  | nil => rfl
  | cons j rest ih =>
    obtain ⟨hj, hrest⟩ := List.forall_mem_cons.1 h
    rw [List.flatMap_cons, List.count_append, List.count_append, ih hrest,
      List.count_eq_zero.2 (lineFeed_notMem_lineBytes hj), List.count_singleton_self, List.length_cons]
    omega

theorem getLast?_linesText (h : documents ≠ []) :
    (encodeText (linesText documents)).data.toList.getLast? = some lineFeed := by
  obtain ⟨before, j, rfl⟩ := (List.eq_nil_or_concat documents).resolve_left h
  rw [toList_linesText]
  simp

end Lines

/-! ## Person records -/

namespace PersonRecord

/-- Reads a record from the bytes of a line. -/
def ofLine? (line : List UInt8) : Option PersonRecord :=
  (String.fromUTF8? ⟨line.toArray⟩).bind fun s => (Json.read? s.toList).bind fun j => ofDocument? (⟨j⟩ : Json.Exact)

theorem ofLine?_lineBytes {r : PersonRecord} (h : r.score.isFinite = true) : ofLine? r.toJson.lineBytes = some r := by
  have hbytes : (⟨r.toJson.lineBytes.toArray⟩ : ByteArray) = encodeText (r.toJson.text .compact) := by
    rw [Json.lineBytes, Array.toArray_toList]
    rfl
  rw [ofLine?, hbytes, fromUTF8?_encodeText, Option.bind_some, String.toList_ofList,
    Json.read?_text r.wellFormed_toJson, Option.bind_some,
    ofDocument?_toJson Json.wrapping_exact (Json.readsBack_exact h)]

/-- Records that were written on a line each are found in the file again: there are as many ends of line as
records, the file ends with one, the lines between them are the documents of the records without any control
character, and a line with a finite score is read as its record. -/
theorem written_in_lines {p : Path} {people : List PersonRecord} {fs fs' : FileSystem} {n : UInt64}
    (h : writeNdjson p (people.map toJson) fs = (.ok n, fs')) :
    ∃ content, fs'.read p = .ok content ∧ content.data.toList.count lineFeed = people.length ∧
      (people ≠ [] → content.data.toList.getLast? = some lineFeed) ∧
      content.data.toList.splitOn lineFeed = people.map (fun r => r.toJson.lineBytes) ++ [[]] ∧
      ∀ r ∈ people, (∀ b ∈ r.toJson.lineBytes, 0x20 ≤ b.toNat) ∧
        (r.score.isFinite = true → ofLine? r.toJson.lineBytes = some r) := by
  have hstores := stores_writeNdjson p (people.map toJson) fs
  rw [h] at hstores
  have hdocuments : ∀ j ∈ people.map toJson, j.WellFormed := fun j hj => by
    obtain ⟨r, -, rfl⟩ := List.mem_map.1 hj
    exact r.wellFormed_toJson
  refine ⟨_, hstores.1, ?_, fun hpeople => getLast?_linesText (by simpa using hpeople), ?_, fun r _ => ⟨?_, ?_⟩⟩
  · rw [count_linesText hdocuments, List.length_map]
  · rw [splitOn_linesText hdocuments, List.map_map]
    rfl
  · exact fun b => Json.le_of_mem_lineBytes r.wellFormed_toJson
  · exact ofLine?_lineBytes

/-- A record with an end of line, a null character and quotes in its texts. -/
theorem written_in_lines_controls :
    let r : PersonRecord := ⟨"1\n2", "\x00\"A\"", 30, ⟨0x4059000000000000⟩, true, "\r\n"⟩
    ∃ n fs content, writeNdjson (.ofText "people") ([r].map toJson) { entries := [], workDir := [] } = (.ok n, fs) ∧
      fs.read (.ofText "people") = .ok content ∧ content.data.toList.count lineFeed = 1 ∧
      content.data.toList.splitOn lineFeed = [r.toJson.lineBytes, []] ∧
      r.score.isFinite = true ∧ ofLine? r.toJson.lineBytes = some r := by
  intro r
  have hok : (writeNdjson (.ofText "people") ([r].map toJson) { entries := [], workDir := [] }).1.toBool = true := by
    decide +kernel
  rcases hwrite : writeNdjson (.ofText "people") ([r].map toJson) { entries := [], workDir := [] } with ⟨e | n, fs⟩
  · rw [hwrite] at hok
    cases hok
  · obtain ⟨content, hcontent, hcount, -, hlines, hr⟩ := written_in_lines hwrite
    have hfinite : r.score.isFinite = true := by decide
    exact ⟨n, fs, content, rfl, hcontent, hcount, hlines, hfinite, (hr r List.mem_cons_self).2 hfinite⟩

end PersonRecord

end Fixtures
