/-
The indentation of nested fixtures. The lines of a value are indented as far as the value is deep, and a nested
fixture is no deeper than its options allow.
-/
import Fixtures.Proofs.Json.Indentation
import Fixtures.Proofs.Run.Independence
import Fixtures.Proofs.Value.Reading

namespace Fixtures

/-! ## Nested values -/

namespace Value

mutual

/-- A value is one deeper than its document is high. -/
theorem depth_eq_height : ∀ v : Value, v.depth = v.toJson.height + 1
  | integer n => rfl
  | float x => by
    have hheight : (Json.ofDouble x).height = 0 := by
      unfold Json.ofDouble
      cases x.numeral? Json.floatStyle <;> rfl
    rw [depth, toJson, hheight]
  | text s => rfl
  | sequence items => by rw [depth, toJson, Json.height, itemsDepth_eq_height items]
  | mapping entries => by rw [depth, toJson, Json.height, entriesDepth_eq_height entries]

theorem itemsDepth_eq_height : ∀ items : List Value, itemsDepth items = Json.itemsHeight (itemsToJson items)
  | [] => rfl
  | v :: rest => by rw [itemsDepth, itemsToJson, Json.itemsHeight, depth_eq_height v, itemsDepth_eq_height rest]

theorem entriesDepth_eq_height :
    ∀ entries : List (String × Value), entriesDepth entries = Json.membersHeight (entriesToJson entries)
  | [] => rfl
  | (_, v) :: rest => by
    rw [entriesDepth, entriesToJson, Json.membersHeight, depth_eq_height v, entriesDepth_eq_height rest]

end

end Value

theorem Mapping.depth_eq_height (m : Mapping) : m.depth = m.toJson.height := Value.entriesDepth_eq_height m

/-! ## Nested fixtures -/

theorem Options.maxDepth_ne_zero {o : Options} {now : DateTime} (h : o.error? now = none) : o.nested.maxDepth ≠ 0 := by
  intro hzero
  rw [error?, if_pos hzero] at h
  cases h

/-- The document of a nested fixture is no deeper than the options say. -/
theorem Content.depth_le {o : Options} {now : DateTime} {seed : UInt64} {c : Content} (hcheck : o.error? now = none)
    (h : ofSeed o now .nested seed = .ok c) : ∃ m, c = nested m ∧ m.depth ≤ o.nested.maxDepth.toNat := by
  obtain ⟨m, s, hrun, rfl⟩ := ofSeed_eq_ok h
  have hshape := (Options.error?_eq_none hcheck).1
  have hpos : 0 < o.nested.maxDepth.toNat := by
    have := Options.maxDepth_ne_zero hcheck
    rw [ne_eq, ← UInt64.toNat_inj] at this
    exact Nat.pos_of_ne_zero this
  obtain ⟨-, hentries⟩ := (Draw.ends_document (E := fun _ => True) hshape fun _ => trivial).of_ok hrun
  refine ⟨m, rfl, Value.entriesDepth_le fun e he => ?_⟩
  have := (hentries e he).2.depth_le
  omega

namespace Run

/-- Every line of the indented text of a value begins with four spaces for each container that was opened on an
earlier line and not closed on one, but for a container that the line's first character closes, and a character
behind them. For a value there are one fewer such containers than the value is deep around some line, and for a
mapping as many as it is deep, and around no line there are more. So a nested fixture of a run is indented by no
more than four spaces for each level of its greatest depth. A log is not to be the fixture itself. -/
theorem indented_by_depth :
    (∀ v : Value, Json.Indented 4 (v.depth - 1) (v.toJson.text Json.fixtureLayout)) ∧
      (∀ m : Mapping, Json.Indented 4 m.depth (m.toJson.text Json.fixtureLayout)) ∧
      ∀ {o : Options} {s s' : Session}, Completes o .nested s s' →
        (∀ l, s'.files.find (o.outputPath .nested) = .ok l → s.journal.location ≠ some l) →
        ∃ cs, s'.files.read (o.outputPath .nested) = .ok (encodeText cs) ∧
          ∀ l ∈ Json.lines cs, l.indent ≤ 4 * o.nested.maxDepth.toNat := by
  have hmapping (m : Mapping) : Json.Indented 4 m.depth (m.toJson.text Json.fixtureLayout) := by
    rw [m.depth_eq_height]
    exact Json.indented_text m.wellFormed_toJson 4
  refine ⟨fun v => ?_, hmapping, ?_⟩
  · rw [v.depth_eq_height, Nat.add_sub_cancel]
    exact Json.indented_text v.wellFormed_toJson 4
  · intro o s s' hcompletes hlog
    obtain ⟨c, hcontent, hread⟩ := hcompletes.read_runSeed hlog
    obtain ⟨m, rfl, hdepth⟩ := Content.depth_le hcompletes.error? hcontent
    refine ⟨_, hread, fun l hl => ?_⟩
    rw [(hmapping m).indent l hl]
    exact Nat.mul_le_mul_left 4 (Nat.le_trans ((hmapping m).level_le l hl) hdepth)

/-- A document of one key, and a value with a bracket and an end of line in a text next to an empty container. -/
theorem indented_by_depth_one_key :
    let o : Options := {
      seed := some 42, nested := { maxDepth := 1, keys := 1, out := some (.ofText "n") }
      csv := { stop := some (.startOf ⟨daysBeforeYear 2025, by decide, by decide⟩) } }
    let s : Session := {
      files := { entries := [], workDir := [] }, now := .first, freshSeed := 0, durations := fun _ => 0 }
    let v : Value := .sequence [.text "]\n\x7b", .mapping []]
    Completes o .nested s (one o .nested s).2 ∧
      (∃ cs, (one o .nested s).2.files.read (.ofText "n") = .ok (encodeText cs) ∧ ∀ l ∈ Json.lines cs, l.indent ≤ 4) ∧
      v.depth = 2 ∧ Json.Indented 4 1 (v.toJson.text Json.fixtureLayout) := by
  intro o s v
  have hcompletes : Completes o .nested s (one o .nested s).2 := by
    have hok : (one o .nested s).1.toBool = true := by decide +kernel
    rcases hrun : one o .nested s with ⟨_ | r, s'⟩
    · rw [hrun] at hok
      cases hok
    · exact .one hrun
  have hlog : ∀ l, (one o .nested s).2.files.find (o.outputPath .nested) = .ok l → s.journal.location ≠ some l := by
    intro _ _ h
    cases h
  exact ⟨hcompletes, indented_by_depth.2.2 hcompletes hlog, rfl, indented_by_depth.1 v⟩

end Run

end Fixtures
