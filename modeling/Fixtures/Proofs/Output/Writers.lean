/-
What the writers store. A document, documents a line each, or rows of CSV: a write that succeeds leaves
exactly the text at the path and gives the number of its bytes; one that fails does so because of a file.
-/
import Fixtures.Proofs.Output.Csv
import Fixtures.Proofs.Output.File

namespace Fixtures

open LawfulSink

namespace WriteError

/-- Whether the cause of the failure is a file. -/
def isIo : WriteError → Bool
  | file _ | json _ | csv (.file _) => true
  | csv _ => false

end WriteError

/-- The outcome of writing data to a path, from a file system: after a success the path holds the data,
and their number is given; nothing else was changed in any case, and a failure is one of a file. -/
def Stores (p : Path) (data : ByteArray) (fs : FileSystem) : Except WriteError UInt64 × FileSystem → Prop
  | (.ok n, fs') => fs'.read p = .ok data ∧ n.toNat = min data.size (UInt64.size - 1) ∧ fs.WritesOnly p fs'
  | (.error e, fs') => e.isIo = true ∧ fs.WritesOnly p fs'

variable {p : Path} {fs fs' : FileSystem} {o o' : FileOutput} {data : ByteArray}

namespace FileOutput

theorem stores_complete (h : create p fs = (.ok o, fs')) (htook : Took o data o') : Stores p data fs o'.complete := by
  obtain ⟨f, rfl, hfile⟩ := create_ok h
  have hcomplete := complete_spec htook
  rcases hc : o'.complete with ⟨e | n, fs''⟩ <;> rw [hc] at hcomplete
  · obtain ⟨⟨cause, rfl⟩, taken, f', htaken, rfl⟩ := hcomplete
    exact ⟨rfl, (hfile htaken).1⟩
  · obtain ⟨rfl, f', htaken, rfl⟩ := hcomplete
    refine ⟨(hfile htaken).2, ?_, (hfile htaken).1⟩
    rw [Counting.toNat_saturatingAdd, UInt64.toNat_zero, Nat.zero_add]

theorem stores_close {e : WriteError} (h : create p fs = (.ok o, fs')) (he : e.isIo = true)
    (htook : ∃ taken, Took o taken o') : Stores p data fs (.error e, o'.close) := by
  obtain ⟨f, rfl, hfile⟩ := create_ok h
  obtain ⟨taken, htook⟩ := htook
  obtain ⟨passed, f', hpassed, hclose⟩ := close_spec htook
  exact ⟨he, by rw [hclose]; exact (hfile hpassed).1⟩

theorem stores_unopened {e : FileError} (h : create p fs = (.error e, fs')) :
    Stores p data fs (.error (.file e), fs') :=
  ⟨rfl, (create_error h).writesOnly⟩

end FileOutput

open FileOutput

/-! ## JSON -/

theorem stores_writeJson (p : Path) (j : Json) (fs : FileSystem) :
    Stores p (encodeText (j.text Json.fixtureLayout)) fs (writeJson p j fs) := by
  unfold writeJson
  rcases hcreate : create p fs with ⟨e | o, fs'⟩
  · exact stores_unopened hcreate
  · have hwrote := Sink.wrote_writeChunks o (j.chunks Json.fixtureLayout)
    rw [joined_chunks] at hwrote
    simp only
    rcases hw : Sink.writeChunks o (j.chunks Json.fixtureLayout) with ⟨e | _, o'⟩ <;> rw [hw] at hwrote
    · exact stores_close hcreate rfl hwrote
    · exact stores_complete hcreate hwrote

theorem isIo_of_writeLines {ω : Type} [Sink ω] {e : WriteError} :
    ∀ {s s' : ω} {documents : List Json}, writeLines s documents = (.error e, s') → e.isIo = true
  | _, _, [], h => by cases h
  | s, s', j :: rest, h => by
    rw [writeLines] at h
    split at h
    · cases h; rfl
    · split at h
      · cases h; rfl
      · exact isIo_of_writeLines h

theorem stores_writeNdjson (p : Path) (documents : List Json) (fs : FileSystem) :
    Stores p (encodeText (linesText documents)) fs (writeNdjson p documents fs) := by
  unfold writeNdjson
  rcases hcreate : create p fs with ⟨e | o, fs'⟩
  · exact stores_unopened hcreate
  · have hwrote := wrote_writeLines o documents
    simp only
    rcases hw : writeLines o documents with ⟨e | _, o'⟩ <;> rw [hw] at hwrote
    · exact stores_close hcreate (isIo_of_writeLines hw) hwrote
    · exact stores_complete hcreate hwrote

/-! ## CSV -/

/-- Records with as many fields as the header are never refused. -/
theorem stores_writeCsv (p : Path) {header : List (List Char)} {records : List Csv.Record} (fs : FileSystem)
    (h : ∀ r ∈ records, r.complete = true ∧ r.fields.length = header.length) :
    Stores p (encodeText (Csv.text header records)) fs (writeCsv p header records fs) := by
  obtain ⟨herror, htext⟩ := Csv.tokens_spec h
  unfold writeCsv
  rcases hcreate : create p fs with ⟨e | o, fs'⟩
  · exact stores_unopened hcreate
  · rcases htokens : Csv.tokens header records with ⟨tokens, error⟩
    rw [htokens] at herror htext
    cases herror
    have hput := Csv.Blocks.collected_putAll ⟨o, .empty⟩ tokens
    rw [htext] at hput
    simp only
    rcases hp : Csv.Blocks.putAll ⟨o, .empty⟩ tokens with ⟨e | _, b⟩ <;> rw [hp] at hput
    · -- the output is closed after a last try to pass on the block
      obtain ⟨taken, htook⟩ := hput
      obtain ⟨taken', htook'⟩ := b.finish_spec
      exact stores_close hcreate rfl ⟨_, more htook htook'⟩
    · obtain ⟨hpass, hempty⟩ := b.pass_spec
      simp only
      rcases hb : b.pass with ⟨e | _, b'⟩ <;> rw [hb] at hpass
      · obtain ⟨passed, -, htook⟩ := hput
        obtain ⟨taken, htook'⟩ := hpass
        obtain ⟨taken', htook''⟩ := b'.finish_spec
        exact stores_close hcreate rfl ⟨_, more htook (more htook' htook'')⟩
      · have hall := hput.trans_nothing hpass
        rw [hempty hb] at hall
        exact stores_complete hcreate hall.took

end Fixtures
