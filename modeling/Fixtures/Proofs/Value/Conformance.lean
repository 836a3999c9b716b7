/-
Random nested values conform to their shape. With a usable shape, from every source of words, a value
or document is drawn whose integers, texts, keys and sizes lie within the bounds at every level and
whose depth is bounded; a draw fails only where a text or container is too large to be addressed.

The induction is on the levels that are left below a value.
-/
import Fixtures.Proofs.Draw.Text
import Fixtures.Proofs.Shape
import Fixtures.Value.Random

namespace Fixtures

/-! ## Conforming values -/

namespace Shape

/-- A text of the length that the shape gives, of lowercase letters. -/
def IsText (s : Shape) (t : String) : Prop :=
  t.length = s.textLength.toNat ∧ ∀ c ∈ t.toList, c.isLower = true

/-- A size within the bounds of the shape. -/
def IsSize (s : Shape) (n : Nat) : Prop := s.minChildren.toNat ≤ n ∧ n ≤ s.maxChildren.toNat

/-- A value whose integers, texts, keys and sizes lie within the bounds of the shape, at every
level. -/
inductive Admits (s : Shape) : Value → Prop
  | integer {n : Int64} : s.intMin ≤ n → n ≤ s.intMax → Admits s (.integer n)
  | float (x : Double) : Admits s (.float x)
  | text {t : String} : s.IsText t → Admits s (.text t)
  | sequence {items : List Value} : s.IsSize items.length → (∀ v ∈ items, Admits s v) →
      Admits s (.sequence items)
  | mapping {entries : List (String × Value)} : s.IsSize entries.length → (∀ e ∈ entries, s.IsText e.1) →
      (∀ e ∈ entries, Admits s e.2) → Admits s (.mapping entries)

/-- A value that may stand at a depth: it conforms to the shape, does not reach below `maxDepth`, and
is a scalar from there on. -/
structure AdmitsAt (s : Shape) (depth maxDepth : Nat) (v : Value) : Prop where
  conforms : s.Admits v
  depth_le : v.depth ≤ max 1 (maxDepth + 1 - depth)
  scalar : maxDepth ≤ depth → v.isScalar = true

/-- Whether the longest text and the largest containers of the shape can be addressed. -/
def Addressable (s : Shape) : Prop :=
  Memory.holds Draw.letterBytes s.textLength.toNat = true ∧
    Memory.holds Value.bytes s.maxChildren.toNat = true ∧
    Memory.holds Mapping.entryBytes s.maxChildren.toNat = true

instance (s : Shape) : Decidable s.Addressable := inferInstanceAs (Decidable (_ ∧ _ ∧ _))

end Shape

/-! ## Depth -/

namespace Value

theorem itemsDepth_le {n : Nat} : ∀ {items : List Value}, (∀ v ∈ items, v.depth ≤ n) → itemsDepth items ≤ n
  | [], _ => Nat.zero_le n
  | v :: rest, h => by
    rw [itemsDepth]
    exact Nat.max_le.2 ⟨h v List.mem_cons_self, itemsDepth_le fun w hw => h w (List.mem_cons_of_mem v hw)⟩

theorem entriesDepth_le {n : Nat} :
    ∀ {entries : List (String × Value)}, (∀ e ∈ entries, e.2.depth ≤ n) → entriesDepth entries ≤ n
  | [], _ => Nat.zero_le n
  | e :: rest, h => by
    rw [entriesDepth]
    exact Nat.max_le.2 ⟨h e List.mem_cons_self, entriesDepth_le fun f hf => h f (List.mem_cons_of_mem e hf)⟩

end Value

/-! ## Drawn values -/

namespace Draw

variable {σ : Type} [WordSource σ] {E : DrawError → Prop}

variable {shape : Shape} {child : Draw σ Value} {P : Value → Prop}

theorem ends_shapeText (hE : ¬ shape.Addressable → E .tooLarge) :
    (shapeText shape : Draw σ String).Ends shape.IsText E := by
  refine (ends_lowercase fun h => hE fun ha => ?_).map fun cs hcs => ?_
  · rw [ha.1] at h; cases h
  · exact ⟨by rw [String.length_ofList, hcs.1], by rw [String.toList_ofList]; exact hcs.2⟩

theorem ends_childCount (h : shape.Usable) : (childCount shape : Draw σ Nat).Ends shape.IsSize E :=
  ends_size (UInt64.le_iff_toNat_le.1 h.children_le) shape.maxChildren.toNat_lt_size

theorem ends_entry (hE : ¬ shape.Addressable → E .tooLarge) (hchild : child.Ends P E) :
    (entry shape child).Ends (fun e => shape.IsText e.1 ∧ P e.2) E :=
  (ends_shapeText hE).bind fun _ ht => hchild.map fun _ hv => ⟨ht, hv⟩

theorem ends_integer_bounds (h : shape.Usable) :
    (integer .wide shape.intMin.toInt shape.intMax.toInt : Draw σ Int).Ends
      (fun n => shape.intMin ≤ Int64.ofInt n ∧ Int64.ofInt n ≤ shape.intMax) E := by
  have hlow := shape.intMin.le_toInt
  have hhigh := shape.intMax.toInt_lt
  refine (ends_integer (Int64.le_iff_toInt_le.1 h.int_le) ?_).mono (fun n hn => ?_) fun _ he => he
  · show _ ≤ (18446744073709551616 : Int)
    omega
  · rw [Int64.le_iff_toInt_le, Int64.le_iff_toInt_le, Int64.toInt_ofInt_of_le (by omega) (by omega)]
    exact hn

/-- A value of a variant conforms if the values drawn within it do, and lies one level above them. -/
theorem ends_ofVariant (h : shape.Usable) (hE : ¬ shape.Addressable → E .tooLarge) {n : Nat}
    {variant : Variant} (hchild : variant.isScalar = false → child.Ends (fun v => shape.Admits v ∧ v.depth ≤ n) E) :
    (ofVariant shape child variant).Ends
      (fun v => shape.Admits v ∧ v.variant = variant ∧ v.depth ≤ if variant.isScalar then 1 else n + 1) E := by
  cases variant with
  | integer => exact (ends_integer_bounds h).map fun n hn => ⟨.integer hn.1 hn.2, rfl, Nat.le_refl 1⟩
  | float =>
    exact (ends_roundedFloat _ h.floatMin_finite h.floatMax_finite h.float_le h.width_finite).map
      fun x _ => ⟨.float x, rfl, Nat.le_refl 1⟩
  | text => exact (ends_shapeText hE).map fun t ht => ⟨.text ht, rfl, Nat.le_refl 1⟩
  | sequence =>
    refine (ends_childCount h).bind fun count hcount => ?_
    refine ((hchild rfl).list fun hlarge => hE fun ha => ?_).map fun items hitems => ⟨?_, rfl, ?_⟩
    · rw [Memory.holds_mono hcount.2 ha.2.1] at hlarge; cases hlarge
    · exact .sequence (hitems.1 ▸ hcount) fun v hv => (hitems.2 v hv).1
    · rw [Value.depth]
      exact Nat.succ_le_succ (Value.itemsDepth_le fun v hv => (hitems.2 v hv).2)
  | mapping =>
    refine (ends_childCount h).bind fun count hcount => ?_
    refine ((ends_entry hE (hchild rfl)).list fun hlarge => hE fun ha => ?_).map fun entries hentries => ⟨?_, rfl, ?_⟩
    · rw [Memory.holds_mono hcount.2 ha.2.2] at hlarge; cases hlarge
    · exact .mapping (hentries.1 ▸ hcount) (fun e he => (hentries.2 e he).1) fun e he => (hentries.2 e he).2.1
    · rw [Value.depth]
      exact Nat.succ_le_succ (Value.entriesDepth_le fun e he => (hentries.2 e he).2.2)

/-- A value with some levels below it conforms, is no deeper than that, and is a scalar if no level
is left. -/
theorem ends_valueWithin (h : shape.Usable) (hE : ¬ shape.Addressable → E .tooLarge) :
    ∀ levels, (valueWithin shape levels : Draw σ Value).Ends
      (fun v => shape.Admits v ∧ v.depth ≤ levels + 1 ∧ (levels = 0 → v.isScalar = true)) E
  | 0 => by
    -- only scalars are drawn from here on, and no value within them
    refine (ends_choose? (by decide) (by decide)).bind fun choice hchoice => ?_
    obtain ⟨variant, hmem, rfl⟩ := hchoice
    have hscalar : variant.isScalar = true := decide_eq_true hmem
    refine (ends_ofVariant h hE (n := 0) fun hno => ?_).mono (fun v hv => ?_) fun _ he => he
    · rw [Option.getD_some, hscalar] at hno; cases hno
    · rw [Option.getD_some, hscalar] at hv
      exact ⟨hv.1, hv.2.2, fun _ => by rw [Value.isScalar, hv.2.1, hscalar]⟩
  | levels + 1 => by
    refine (ends_choose? (by decide) (by decide)).bind fun choice hchoice => ?_
    obtain ⟨variant, -, rfl⟩ := hchoice
    have hchild : (valueWithin shape levels : Draw σ Value).Ends
        (fun v => shape.Admits v ∧ v.depth ≤ levels + 1) E :=
      (ends_valueWithin h hE levels).mono (fun _ hv => ⟨hv.1, hv.2.1⟩) fun _ he => he
    refine (ends_ofVariant h hE fun _ => hchild).mono (fun v hv => ⟨hv.1, ?_, by simp⟩) fun _ he => he
    have hdepth := hv.2.2
    split at hdepth <;> omega

theorem ends_value (h : shape.Usable) (hE : ¬ shape.Addressable → E .tooLarge) (depth maxDepth : Nat) :
    (value shape depth maxDepth : Draw σ Value).Ends (shape.AdmitsAt depth maxDepth) E :=
  (ends_valueWithin h hE (maxDepth - depth)).mono
    (fun _ hv => ⟨hv.1, by omega, fun hdepth => hv.2.2 (by omega)⟩) fun _ he => he

theorem ends_document (h : shape.Usable) {maxDepth keys : Nat}
    (hE : ¬ (shape.Addressable ∧ Memory.holds Mapping.entryBytes keys = true) → E .tooLarge) :
    (document shape maxDepth keys : Draw σ Mapping).Ends
      (fun m => m.length = keys ∧ ∀ e ∈ m, shape.IsText e.1 ∧ shape.AdmitsAt 1 maxDepth e.2) E := by
  have hshape : ¬ shape.Addressable → E .tooLarge := fun hno => hE fun ha => hno ha.1
  refine (ends_entry hshape (ends_value h hshape 1 maxDepth)).list fun hlarge => hE fun ha => ?_
  rw [ha.2] at hlarge; cases hlarge

/-! ## Conformance of every draw -/

/-- With a shape that passes its check, from any source of words, at any depth and for any number of
keys, nothing fails but the addressing of a text, a container or the document itself, and what is
drawn conforms to the shape. -/
theorem draws_conform {shape : Shape} (h : shape.error? = none) :
    (∀ depth maxDepth, (value shape depth maxDepth : Draw σ Value).Ends (shape.AdmitsAt depth maxDepth)
      fun e => e = .tooLarge ∧ ¬ shape.Addressable) ∧
    (∀ maxDepth keys, (document shape maxDepth keys : Draw σ Mapping).Ends
      (fun m => m.length = keys ∧ ∀ e ∈ m, shape.IsText e.1 ∧ shape.AdmitsAt 1 maxDepth e.2)
      fun e => e = .tooLarge ∧ ¬ (shape.Addressable ∧ Memory.holds Mapping.entryBytes keys = true)) := by
  have hu := Shape.error?_eq_none_iff.1 h
  exact ⟨fun depth maxDepth => ends_value hu (fun ha => ⟨rfl, ha⟩) depth maxDepth,
    fun maxDepth keys => ends_document hu fun ha => ⟨rfl, ha⟩⟩

/-- Integers over the whole of 64 bits, where the range wraps to nothing, and containers of every size
that a narrow word can give. -/
theorem draws_conform_full_width :
    let shape : Shape := {
      intMin := Int64.minValue, intMax := Int64.maxValue, minChildren := 1, maxChildren := 0xffffffff }
    shape.error? = none ∧ shape.Addressable ∧
      (value shape 1 3 : Draw Tape Value).Ends (shape.AdmitsAt 1 3) (fun e => e = .tooLarge ∧ ¬ shape.Addressable) :=
  ⟨by decide +kernel, by decide +kernel, (draws_conform (by decide +kernel)).1 1 3⟩

end Draw

end Fixtures
