/-
Random nested values reach all that their shape admits. For every value without floating-point numbers that conforms
to a usable shape, is no deeper than allowed and can be held in memory there are words on which it is drawn, and no
other value is ever drawn. So both ends of every range, every letter, every size and every variant above the depth
limit come up.

The induction is on the levels that are left below a value; the words of a container are those of its size and then
those of what it holds, one after the other.
-/
import Fixtures.Proofs.Draw.Reach
import Fixtures.Proofs.Value.Conformance
import Fixtures.Proofs.Value.Reading

namespace Fixtures

namespace Value

/-- A value of which every text, sequence and mapping can be addressed, as it can in every value that is held in
memory. -/
inductive Held : Value → Prop
  | integer (n : Int64) : Held (.integer n)
  | float (x : Double) : Held (.float x)
  | text {t : String} : Memory.holds Draw.letterBytes t.length = true → Held (.text t)
  | sequence {items : List Value} : Memory.holds Value.bytes items.length = true → (∀ v ∈ items, Held v) →
      Held (.sequence items)
  | mapping {entries : List (String × Value)} : Memory.holds Mapping.entryBytes entries.length = true →
      (∀ e ∈ entries, Memory.holds Draw.letterBytes e.1.length = true) → (∀ e ∈ entries, Held e.2) →
      Held (.mapping entries)

/-! ## Parts of a value -/

variable {v : Value} {e : String × Value} {items : List Value} {entries : List (String × Value)}

theorem floats_of_item (h : (sequence items).floats = []) (hv : v ∈ items) : v.floats = [] := by
  rw [List.eq_nil_iff_forall_not_mem] at h ⊢
  exact fun x hx => h x (mem_itemsFloats.2 ⟨v, hv, hx⟩)

theorem floats_of_entry (h : (mapping entries).floats = []) (he : e ∈ entries) : e.2.floats = [] := by
  rw [List.eq_nil_iff_forall_not_mem] at h ⊢
  exact fun x hx => h x (mem_entriesFloats.2 ⟨e, he, hx⟩)

theorem depth_lt_of_item (hv : v ∈ items) : v.depth < (sequence items).depth := by
  rw [depth, Nat.lt_succ_iff]
  induction items with
  | nil => cases hv
  | cons w rest ih =>
    rw [itemsDepth]
    rcases List.mem_cons.1 hv with rfl | hv
    · exact Nat.le_max_left _ _
    · exact Nat.le_trans (ih hv) (Nat.le_max_right _ _)

theorem depth_lt_of_entry (he : e ∈ entries) : e.2.depth < (mapping entries).depth := by
  rw [depth, Nat.lt_succ_iff]
  induction entries with
  | nil => cases he
  | cons f rest ih =>
    rw [entriesDepth]
    rcases List.mem_cons.1 he with rfl | he
    · exact Nat.le_max_left _ _
    · exact Nat.le_trans (ih he) (Nat.le_max_right _ _)

theorem depth_pos (v : Value) : 0 < v.depth := by
  cases v <;> exact Nat.succ_pos _

end Value

/-- A container that conforms to a usable shape is not empty. -/
theorem Shape.Admits.one_lt_depth {shape : Shape} {v : Value} (hv : shape.Admits v) (h : shape.Usable)
    (hscalar : v.isScalar = false) : 1 < v.depth := by
  have hmin : 0 < shape.minChildren.toNat := Nat.pos_of_ne_zero fun h0 => h.children_ne (UInt64.toNat_inj.1 h0)
  cases hv with
  | integer | float | text => cases hscalar
  | sequence hsize _ =>
    obtain ⟨w, hw⟩ := List.exists_mem_of_length_pos (Nat.lt_of_lt_of_le hmin hsize.1)
    have := Value.depth_lt_of_item hw
    have := w.depth_pos
    omega
  | mapping hsize _ _ =>
    obtain ⟨e, he⟩ := List.exists_mem_of_length_pos (Nat.lt_of_lt_of_le hmin hsize.1)
    have := Value.depth_lt_of_entry he
    have := e.2.depth_pos
    omega

theorem Variant.mem_all (variant : Variant) : variant ∈ Variant.all := by cases variant <;> decide

namespace Draw

variable {σ : Type} [WordSource σ] {shape : Shape} {child : Draw σ Value} {v : Value}

/-! ## Reached values -/

theorem reaches_shapeText {t : String} (ht : shape.IsText t) (hholds : Memory.holds letterBytes t.length = true) :
    (shapeText shape : Draw σ String).Reaches t := by
  have hletters : (lowercase t.toList.length : Draw σ (List Char)).Reaches t.toList :=
    reaches_lowercase hholds ht.2
  rw [String.length_toList, ht.1] at hletters
  exact hletters.map String.ofList_toList

theorem reaches_childCount {n : Nat} (hn : shape.IsSize n) :
    (childCount shape : Draw σ Nat).Reaches n :=
  reaches_size hn.1 hn.2 shape.maxChildren.toNat_lt_size

theorem reaches_entry {e : String × Value} (ht : shape.IsText e.1) (hholds : Memory.holds letterBytes e.1.length = true)
    (hchild : child.Reaches e.2) : (entry shape child).Reaches e :=
  (reaches_shapeText ht hholds).bind (hchild.map rfl)

/-- The draw of the variant of a value reaches it if the draw of the values within it reaches those that it holds. -/
theorem reaches_ofVariant (hv : shape.Admits v) (hheld : v.Held) (hfloats : v.floats = [])
    (hitems : ∀ items, v = .sequence items → ∀ w ∈ items, child.Reaches w)
    (hentries : ∀ entries, v = .mapping entries → ∀ e ∈ entries, child.Reaches e.2) :
    (ofVariant shape child v.variant).Reaches v := by
  cases hv with
  | @integer n hlow hhigh =>
    have hmin := shape.intMin.le_toInt
    have hmax := shape.intMax.toInt_lt
    rw [Int64.le_iff_toInt_le] at hlow hhigh
    refine (reaches_integer hlow hhigh ?_).map ?_
    · show _ ≤ (18446744073709551616 : Int)
      omega
    · rw [Int64.ofInt_toInt]
  | float x => cases hfloats
  | text ht =>
    cases hheld with
    | text hholds => exact (reaches_shapeText ht hholds).map rfl
  | sequence hsize _ =>
    cases hheld with
    | sequence hholds _ =>
      exact (reaches_childCount hsize).bind ((reaches_list hholds (hitems _ rfl)).map rfl)
  | mapping hsize htexts _ =>
    cases hheld with
    | mapping hholds hkeys _ =>
      refine (reaches_childCount hsize).bind ((reaches_list hholds fun e he => ?_).map rfl)
      exact reaches_entry (htexts e he) (hkeys e he) (hentries _ rfl e he)

theorem reaches_valueWithin (h : shape.Usable) : ∀ (levels : Nat) {v : Value}, shape.Admits v → v.Held → v.floats = [] →
    v.depth ≤ levels + 1 → (valueWithin shape levels : Draw σ Value).Reaches v
  | 0, v, hv, hheld, hfloats, hdepth => by
    -- there is room for a scalar only
    have hscalar : v.isScalar = true := by
      cases hs : v.isScalar with
      | true => rfl
      | false =>
        have := hv.one_lt_depth h hs
        omega
    refine (reaches_choose? (of_decide_eq_true hscalar) (by decide)).bind ?_
    refine reaches_ofVariant hv hheld hfloats ?_ ?_
    · rintro items rfl
      cases hscalar
    · rintro entries rfl
      cases hscalar
  | levels + 1, v, hv, hheld, hfloats, hdepth => by
    refine (reaches_choose? (Variant.mem_all v.variant) (by decide)).bind ?_
    refine reaches_ofVariant hv hheld hfloats ?_ ?_
    · rintro items rfl w hw
      cases hv with | sequence _ hvs =>
      cases hheld with | sequence _ hhelds =>
      have := Value.depth_lt_of_item hw
      exact reaches_valueWithin h levels (hvs w hw) (hhelds w hw) (Value.floats_of_item hfloats hw) (by omega)
    · rintro entries rfl e he
      cases hv with | mapping _ _ hvs =>
      cases hheld with | mapping _ _ hhelds =>
      have := Value.depth_lt_of_entry he
      exact reaches_valueWithin h levels (hvs e he) (hhelds e he) (Value.floats_of_entry hfloats he) (by omega)

/-! ## What is drawn is held -/

theorem ends_shapeText_holds (shape : Shape) :
    (shapeText shape : Draw σ String).Ends (fun t => Memory.holds letterBytes t.length = true) fun _ => True := by
  refine (ends_any (letter lowercaseLetters)).list_holds.map fun cs hcs => ?_
  rw [String.length_ofList]
  exact hcs.1

theorem ends_ofVariant_held (hchild : child.Ends Value.Held fun _ => True) (variant : Variant) :
    (ofVariant shape child variant).Ends Value.Held fun _ => True := by
  cases variant with
  | integer => exact (ends_any _).map fun n _ => .integer _
  | float => exact (ends_any _).map fun x _ => .float x
  | text => exact (ends_shapeText_holds shape).map fun t ht => .text ht
  | sequence =>
    refine (ends_any _).bind fun count _ => ?_
    exact hchild.list_holds.map fun items hitems => .sequence hitems.1 hitems.2
  | mapping =>
    refine (ends_any _).bind fun count _ => ?_
    have hentry : (entry shape child).Ends
        (fun e => Memory.holds letterBytes e.1.length = true ∧ e.2.Held) fun _ => True :=
      (ends_shapeText_holds shape).bind fun t ht => hchild.map fun v hv => ⟨ht, hv⟩
    exact hentry.list_holds.map fun entries hentries =>
      .mapping hentries.1 (fun e he => (hentries.2 e he).1) fun e he => (hentries.2 e he).2

theorem ends_valueWithin_held (shape : Shape) :
    ∀ levels, (valueWithin shape levels : Draw σ Value).Ends Value.Held fun _ => True
  | 0 => (ends_any _).bind fun _ _ => ends_ofVariant_held (ends_pure (.integer _)) _
  | levels + 1 => (ends_any _).bind fun _ _ => ends_ofVariant_held (ends_valueWithin_held shape levels) _

/-! ## All that the shape admits -/

/-- With a shape that passes its check, the values without floating-point numbers that are drawn on some words, of which
all are taken, are those that conform to the shape, are no deeper than allowed, and can be held in memory. -/
theorem reachable_iff {shape : Shape} (hshape : shape.error? = none) {maxDepth : Nat} (hdepth : 1 ≤ maxDepth)
    {v : Value} (hfloats : v.floats = []) :
    (∃ words : List UInt32, ∀ t : Tape, (∀ i (h : i < words.length), t.words (t.position + i) = words[i]) →
        (value shape 1 maxDepth).run t = (.ok v, { t with position := t.position + words.length })) ↔
      shape.Admits v ∧ v.depth ≤ maxDepth ∧ v.Held := by
  have hu := Shape.error?_eq_none_iff.1 hshape
  constructor
  · rintro ⟨words, hwords⟩
    have hreach : (value shape 1 maxDepth : Draw Tape Value).Reaches v := by
      refine ⟨words, fun t t' hgives => ?_⟩
      obtain ⟨hfirst, rfl⟩ := gives_tape.1 hgives
      exact hwords t hfirst
    have hadmits := hreach.holds (ends_value hu (E := fun _ => True) (fun _ => trivial) 1 maxDepth)
    refine ⟨hadmits.conforms, ?_, hreach.holds (ends_valueWithin_held shape _)⟩
    have := hadmits.depth_le
    omega
  · rintro ⟨hadmits, hle, hheld⟩
    obtain ⟨words, hwords⟩ : (value shape 1 maxDepth : Draw Tape Value).Reaches v :=
      reaches_valueWithin hu (maxDepth - 1) hadmits hheld hfloats (by omega)
    exact ⟨words, fun t ht => hwords t _ (gives_tape.2 ⟨ht, rfl⟩)⟩

/-- A mapping with one key twice, over both ends of the integers of 64 bits, the last letter and every size. -/
theorem reachable_iff_ends :
    let shape : Shape := {
      intMin := Int64.minValue, intMax := Int64.maxValue, textLength := 1, minChildren := 1, maxChildren := 2 }
    let v : Value := .mapping [
      ("z", .sequence [.integer Int64.minValue]), ("z", .sequence [.integer Int64.maxValue, .text "a"])]
    shape.error? = none ∧
      ∃ words : List UInt32, ∀ t : Tape, (∀ i (h : i < words.length), t.words (t.position + i) = words[i]) →
        (value shape 1 3).run t = (.ok v, { t with position := t.position + words.length }) := by
  intro shape v
  have hshape : shape.error? = none := by decide +kernel
  have htext : shape.IsText "z" ∧ shape.IsText "a" :=
    ⟨⟨by decide, List.all_eq_true.1 (by decide)⟩, ⟨by decide, List.all_eq_true.1 (by decide)⟩⟩
  have hsize : shape.IsSize 1 ∧ shape.IsSize 2 := by
    unfold Shape.IsSize
    decide
  refine ⟨hshape, (reachable_iff hshape (by decide) rfl).2 ⟨?_, by decide, ?_⟩⟩
  · refine .mapping hsize.2 (by simp [htext.1]) ?_
    rintro e (_ | ⟨_, _ | ⟨_, ⟨⟩⟩⟩)
    · refine .sequence hsize.1 ?_
      rintro w (_ | ⟨_, ⟨⟩⟩)
      exact .integer (by decide) (by decide)
    · refine .sequence hsize.2 ?_
      rintro w (_ | ⟨_, _ | ⟨_, ⟨⟩⟩⟩)
      · exact .integer (by decide) (by decide)
      · exact .text htext.2
  · refine .mapping (by decide) (by decide) ?_
    rintro e (_ | ⟨_, _ | ⟨_, ⟨⟩⟩⟩)
    · refine .sequence (by decide) ?_
      rintro w (_ | ⟨_, ⟨⟩⟩)
      exact .integer _
    · refine .sequence (by decide) ?_
      rintro w (_ | ⟨_, _ | ⟨_, ⟨⟩⟩⟩)
      · exact .integer _
      · exact .text (by decide)

end Draw

end Fixtures
