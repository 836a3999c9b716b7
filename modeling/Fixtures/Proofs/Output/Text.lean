/-
Texts written in pieces. The bytes of pieces put together are those of the whole text, so documents that
are written chunk by chunk are written as their text.
-/
import Fixtures.Output.Ndjson
import Fixtures.Proofs.Output.Sink

namespace Fixtures

/-! ## Bytes of texts -/

theorem encodeText_append (a b : List Char) : encodeText (a ++ b) = encodeText a ++ encodeText b := by
  unfold encodeText
  rw [String.ofList_append]
  exact String.toByteArray_append

theorem joined_map_encodeText :
    ∀ (pieces : List (List Char)), joined (pieces.map encodeText) = encodeText pieces.flatten
  | [] => rfl
  | piece :: rest => by
    rw [List.flatten_cons, encodeText_append, ← joined_map_encodeText rest]
    rfl

theorem joined_chunks (layout : Json.Layout) (j : Json) : joined (j.chunks layout) = encodeText (j.text layout) :=
  joined_map_encodeText (j.pieces layout)

/-! ## Lines -/

/-- The text of documents, one a line. -/
def linesText (documents : List Json) : List Char := documents.flatMap fun j => j.text .compact ++ ['\n']

open LawfulSink

variable {ω : Type} [Sink ω] [LawfulSink ω]

theorem Wrote.after {ε : Type} {s s' : ω} {a data : ByteArray} {r : Except ε Unit × ω} (h : Took s a s')
    (h' : Wrote s' data r) : Wrote s (a ++ data) r := by
  rcases r with ⟨_ | _, s''⟩
  · obtain ⟨taken, htook⟩ := h'
    exact ⟨_, more h htook⟩
  · exact more h h'

theorem wrote_writeLines : ∀ (s : ω) (documents : List Json),
    Wrote s (encodeText (linesText documents)) (writeLines s documents)
  | s, [] => nothing s
  | s, j :: rest => by
    have hdocument := Sink.wrote_writeChunks s (j.chunks .compact)
    rw [joined_chunks] at hdocument
    rw [writeLines, linesText, List.flatMap_cons, ← linesText, encodeText_append, encodeText_append,
      ByteArray.append_assoc]
    rcases hd : Sink.writeChunks s (j.chunks .compact) with ⟨e | _, s₁⟩ <;> rw [hd] at hdocument
    · exact hdocument
    · refine Wrote.after hdocument ?_
      have hend := Sink.wrote_writeAll s₁ (encodeText ['\n'])
      simp only
      rcases he : Sink.writeAll s₁ (encodeText ['\n']) with ⟨e | _, s₂⟩ <;> rw [he] at hend
      · exact hend
      · exact Wrote.after hend (wrote_writeLines s₂ rest)

end Fixtures
