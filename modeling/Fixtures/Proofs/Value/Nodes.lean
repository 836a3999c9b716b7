/-
How large random nested values get. A value with some levels below it has at most as many nodes as the
full tree in which every container has the largest size, and a document as many times more as it has keys.
The full tree itself is drawn on some words exactly if its containers can be addressed.

That no value is larger follows from its depth and the sizes of its containers, by induction on the levels;
that the full tree is drawn, from what is reached.
-/
import Mathlib.Algebra.Order.Ring.GeomSum
import Fixtures.Proofs.Value.Reach

namespace Fixtures

/-! ## Nodes -/

namespace Value

mutual

/-- The number of values that a value is made of, itself included. -/
def nodes : Value → Nat
  | sequence items => itemsNodes items + 1
  | mapping entries => entriesNodes entries + 1
  | integer _ => 1
  | float _ => 1
  | text _ => 1

/-- The nodes of all items. -/
def itemsNodes : List Value → Nat
  | [] => 0
  | v :: rest => v.nodes + itemsNodes rest

/-- The nodes of the values of all entries. -/
def entriesNodes : List (String × Value) → Nat
  | [] => 0
  | (_, v) :: rest => v.nodes + entriesNodes rest

end

theorem itemsNodes_le {n : Nat} {items : List Value} (h : ∀ v ∈ items, v.nodes ≤ n) :
    itemsNodes items ≤ items.length * n := by
  induction items with
  | nil => exact Nat.zero_le _
  | cons v rest ih =>
    have hv := h v List.mem_cons_self
    have hrest := ih fun w hw => h w (List.mem_cons_of_mem v hw)
    rw [itemsNodes, List.length_cons, Nat.succ_mul]
    omega

theorem itemsNodes_replicate (n : Nat) (v : Value) : itemsNodes (List.replicate n v) = n * v.nodes := by
  induction n with
  | zero => rw [Nat.zero_mul]; rfl
  | succ n ih => rw [List.replicate_succ, itemsNodes, ih, Nat.succ_mul, Nat.add_comm]

theorem entriesNodes_eq (entries : List (String × Value)) :
    entriesNodes entries = itemsNodes (entries.map Prod.snd) := by
  induction entries with
  | nil => rfl
  | cons e rest ih => rw [entriesNodes, List.map_cons, itemsNodes, ih]

theorem entriesNodes_le {n : Nat} {entries : List (String × Value)} (h : ∀ e ∈ entries, e.2.nodes ≤ n) :
    entriesNodes entries ≤ entries.length * n := by
  rw [entriesNodes_eq, ← List.length_map (f := Prod.snd)]
  refine itemsNodes_le fun v hv => ?_
  obtain ⟨e, he, rfl⟩ := List.mem_map.1 hv
  exact h e he

theorem entriesNodes_replicate (n : Nat) (key : String) (v : Value) :
    entriesNodes (List.replicate n (key, v)) = n * v.nodes := by
  rw [entriesNodes_eq, List.map_replicate, itemsNodes_replicate]

end Value

/-- The number of values that the values of a mapping are made of. -/
def Mapping.nodes (m : Mapping) : Nat := Value.entriesNodes m

theorem Memory.holds_of_bytes_le {bytes more count : Nat} (hle : bytes ≤ more) (h : holds more count = true) :
    holds bytes count = true := by
  simp only [holds, decide_eq_true_eq] at *
  exact Nat.le_trans (Nat.mul_le_mul_right count hle) h

/-! ## The most nodes -/

namespace Shape

variable {s : Shape} {v : Value} {levels : Nat}

/-- The nodes of a value with some levels below it whose containers all have the largest size: one at the
top, and on each level as many times more as a container holds. -/
def mostNodes (s : Shape) (levels : Nat) : Nat := ∑ i ∈ Finset.range (levels + 1), s.maxChildren.toNat ^ i

theorem mostNodes_succ (s : Shape) (levels : Nat) :
    s.mostNodes (levels + 1) = s.maxChildren.toNat * s.mostNodes levels + 1 := geom_sum_succ

theorem mostNodes_pos (s : Shape) (levels : Nat) : 0 < s.mostNodes levels := by
  cases levels with
  | zero => exact Nat.one_pos
  | succ levels => rw [mostNodes_succ]; exact Nat.succ_pos _

/-- All levels together have fewer nodes than the next one. -/
theorem mostNodes_lt (h : 2 ≤ s.maxChildren.toNat) : s.mostNodes levels < s.maxChildren.toNat ^ (levels + 1) :=
  Nat.geomSum_lt h fun _ hi => Finset.mem_range.1 hi

/-- A value has no more nodes than its size and those of the values within it allow. -/
theorem Admits.nodes_le_of_parts {n : Nat} (hv : s.Admits v)
    (hitems : ∀ items, v = .sequence items → ∀ w ∈ items, w.nodes ≤ n)
    (hentries : ∀ entries, v = .mapping entries → ∀ e ∈ entries, e.2.nodes ≤ n) :
    v.nodes ≤ s.maxChildren.toNat * n + 1 := by
  cases hv with
  | integer | float | text => exact Nat.le_add_left 1 _
  | sequence hsize _ =>
    have hsum := Value.itemsNodes_le (hitems _ rfl)
    have hmost := Nat.mul_le_mul_right n hsize.2
    rw [Value.nodes]
    omega
  | mapping hsize _ _ =>
    have hsum := Value.entriesNodes_le (hentries _ rfl)
    have hmost := Nat.mul_le_mul_right n hsize.2
    rw [Value.nodes]
    omega

/-- The depth of a conforming value bounds its nodes. -/
theorem Admits.nodes_le : ∀ {levels : Nat} {v : Value}, s.Admits v → v.depth ≤ levels + 1 → v.nodes ≤ s.mostNodes levels
  | 0, v, hv, hdepth => by
    -- what a container of this depth held would have no depth
    refine hv.nodes_le_of_parts (n := 0) ?_ ?_
    · rintro items rfl w hw
      have := Value.depth_lt_of_item hw
      have := w.depth_pos
      omega
    · rintro entries rfl e he
      have := Value.depth_lt_of_entry he
      have := e.2.depth_pos
      omega
  | levels + 1, v, hv, hdepth => by
    rw [mostNodes_succ]
    refine hv.nodes_le_of_parts ?_ ?_
    · rintro items rfl w hw
      cases hv with | sequence _ hvs =>
      have := Value.depth_lt_of_item hw
      exact (hvs w hw).nodes_le (by omega)
    · rintro entries rfl e he
      cases hv with | mapping _ _ hvs =>
      have := Value.depth_lt_of_entry he
      exact (hvs e he).nodes_le (by omega)

/-- A value that has the most nodes, with a level below its top, is a container of the largest size, so this
size can be addressed if the value is held in memory. -/
theorem Admits.holds_of_nodes_eq (hv : s.Admits v) (hheld : v.Held) (hdepth : v.depth ≤ levels + 2)
    (hnodes : v.nodes = s.mostNodes (levels + 1)) : Memory.holds Value.bytes s.maxChildren.toNat = true := by
  have hpos := s.mostNodes_pos levels
  -- too few values of the level below would have too few nodes
  have hle : ∀ {length : Nat}, s.maxChildren.toNat * s.mostNodes levels ≤ length * s.mostNodes levels →
      s.maxChildren.toNat ≤ length := fun h => Nat.le_of_mul_le_mul_right h hpos
  rw [mostNodes_succ] at hnodes
  cases hv with
  | integer | float | text =>
    simp only [Value.nodes] at hnodes
    have hnone : s.maxChildren.toNat * s.mostNodes levels = 0 := by omega
    rw [(Nat.mul_eq_zero.1 hnone).resolve_right (by omega)]
    rfl
  | @sequence items hsize hvs =>
    have hsum : Value.itemsNodes items ≤ items.length * s.mostNodes levels := by
      refine Value.itemsNodes_le fun w hw => (hvs w hw).nodes_le ?_
      have := Value.depth_lt_of_item hw
      omega
    cases hheld with | sequence hholds _ =>
    rw [Value.nodes] at hnodes
    exact Memory.holds_mono (hle (by omega)) hholds
  | @mapping entries hsize htexts hvs =>
    have hsum : Value.entriesNodes entries ≤ entries.length * s.mostNodes levels := by
      refine Value.entriesNodes_le fun e he => (hvs e he).nodes_le ?_
      have := Value.depth_lt_of_entry he
      omega
    cases hheld with | mapping hholds _ _ =>
    rw [Value.nodes] at hnodes
    -- an entry takes more bytes than a value alone
    exact Memory.holds_mono (hle (by omega)) (Memory.holds_of_bytes_le (by decide) hholds)

/-! ## The full tree -/

/-- A value with some levels below it, all of whose containers are sequences of the largest size. -/
def fullValue (s : Shape) : (levels : Nat) → Value
  | 0 => .integer s.intMin
  | levels + 1 => .sequence (List.replicate s.maxChildren.toNat (s.fullValue levels))

theorem nodes_fullValue (s : Shape) (levels : Nat) : (s.fullValue levels).nodes = s.mostNodes levels := by
  induction levels with
  | zero => rfl
  | succ levels ih => rw [fullValue, Value.nodes, Value.itemsNodes_replicate, ih, mostNodes_succ]

theorem admits_fullValue (h : s.Usable) (levels : Nat) : s.Admits (s.fullValue levels) := by
  induction levels with
  | zero => exact .integer Int64.le_rfl h.int_le
  | succ levels ih =>
    refine .sequence ?_ fun v hv => List.eq_of_mem_replicate hv ▸ ih
    rw [List.length_replicate]
    exact ⟨UInt64.le_iff_toNat_le.1 h.children_le, Nat.le_refl _⟩

theorem depth_fullValue_le (s : Shape) (levels : Nat) : (s.fullValue levels).depth ≤ levels + 1 := by
  induction levels with
  | zero => exact Nat.le_refl 1
  | succ levels ih =>
    rw [fullValue, Value.depth]
    exact Nat.succ_le_succ (Value.itemsDepth_le fun v hv => List.eq_of_mem_replicate hv ▸ ih)

theorem floats_fullValue (s : Shape) (levels : Nat) : (s.fullValue levels).floats = [] := by
  induction levels with
  | zero => rfl
  | succ levels ih =>
    rw [List.eq_nil_iff_forall_not_mem]
    intro x hx
    obtain ⟨v, hv, hx⟩ := Value.mem_itemsFloats.1 hx
    rw [List.eq_of_mem_replicate hv, ih] at hx
    cases hx

theorem held_fullValue (h : levels = 0 ∨ Memory.holds Value.bytes s.maxChildren.toNat = true) :
    (s.fullValue levels).Held := by
  induction levels with
  | zero => exact .integer _
  | succ levels ih =>
    have hholds := h.resolve_left (Nat.succ_ne_zero levels)
    refine .sequence ?_ fun v hv => List.eq_of_mem_replicate hv ▸ ih (.inr hholds)
    rw [List.length_replicate]
    exact hholds

/-- A text of the length that the shape gives. -/
def fullText (s : Shape) : String := String.ofList (List.replicate s.textLength.toNat 'a')

theorem length_fullText (s : Shape) : s.fullText.length = s.textLength.toNat := by
  rw [fullText, String.length_ofList, List.length_replicate]

theorem isText_fullText (s : Shape) : s.IsText s.fullText := by
  refine ⟨s.length_fullText, fun c hc => ?_⟩
  rw [fullText, String.toList_ofList] at hc
  rw [List.eq_of_mem_replicate hc]
  decide

end Shape

/-! ## Drawn values -/

namespace Draw

variable {α : Type} {shape : Shape}

/-- On some tape something of a size is drawn. -/
def Attains (m : Draw Tape α) (size : α → Nat) (n : Nat) : Prop :=
  ∃ (t t' : Tape) (a : α), m.run t = (.ok a, t') ∧ size a = n

theorem Reaches.attains {m : Draw Tape α} {a : α} (h : m.Reaches a) (size : α → Nat) : m.Attains size (size a) := by
  obtain ⟨words, hrun⟩ := h
  obtain ⟨t, t', hgives⟩ := exists_gives words
  exact ⟨t, t', a, hrun t t' hgives, rfl⟩

variable {σ : Type} [WordSource σ] {E : DrawError → Prop}

theorem ends_value_nodes (h : shape.Usable) (hE : ¬ shape.Addressable → E .tooLarge) (depth maxDepth : Nat) :
    (value shape depth maxDepth : Draw σ Value).Ends (fun v => v.nodes ≤ shape.mostNodes (maxDepth - depth)) E := by
  refine (ends_value h hE depth maxDepth).mono (fun v hv => ?_) fun _ he => he
  have := hv.depth_le
  exact hv.conforms.nodes_le (by omega)

theorem ends_document_nodes (h : shape.Usable) {maxDepth keys : Nat}
    (hE : ¬ (shape.Addressable ∧ Memory.holds Mapping.entryBytes keys = true) → E .tooLarge) :
    (document shape maxDepth keys : Draw σ Mapping).Ends
      (fun m => m.nodes ≤ keys * shape.mostNodes (maxDepth - 1)) E := by
  refine (ends_document h hE).mono (fun m hm => ?_) fun _ he => he
  rw [← hm.1]
  refine Value.entriesNodes_le fun e he => ?_
  have := (hm.2 e he).2.depth_le
  exact (hm.2 e he).2.conforms.nodes_le (by omega)

theorem reaches_fullValue (h : shape.Usable) {levels : Nat}
    (hholds : levels = 0 ∨ Memory.holds Value.bytes shape.maxChildren.toNat = true) :
    (valueWithin shape levels : Draw σ Value).Reaches (shape.fullValue levels) :=
  reaches_valueWithin h levels (Shape.admits_fullValue h levels) (Shape.held_fullValue hholds)
    (shape.floats_fullValue levels) (shape.depth_fullValue_le levels)

theorem reaches_fullDocument (h : shape.Usable) {maxDepth keys : Nat}
    (htext : Memory.holds letterBytes shape.textLength.toNat = true)
    (hkeys : Memory.holds Mapping.entryBytes keys = true)
    (hholds : maxDepth ≤ 1 ∨ Memory.holds Value.bytes shape.maxChildren.toNat = true) :
    (document shape maxDepth keys : Draw σ Mapping).Reaches
      (List.replicate keys (shape.fullText, shape.fullValue (maxDepth - 1))) := by
  have hvalue : (value shape 1 maxDepth : Draw σ Value).Reaches (shape.fullValue (maxDepth - 1)) :=
    reaches_fullValue h (hholds.imp_left Nat.sub_eq_zero_of_le)
  have hentry : ∀ e ∈ List.replicate keys (shape.fullText, shape.fullValue (maxDepth - 1)),
      (entry shape (value shape 1 maxDepth) : Draw σ (String × Value)).Reaches e := by
    intro e he
    rw [List.eq_of_mem_replicate he]
    exact reaches_entry shape.isText_fullText (shape.length_fullText ▸ htext) hvalue
  have hroom : Memory.holds Mapping.entryBytes
      (List.replicate keys (shape.fullText, shape.fullValue (maxDepth - 1))).length = true := by
    rwa [List.length_replicate]
  have hlist := reaches_list hroom hentry
  rwa [List.length_replicate] at hlist

/-- The most nodes are drawn exactly if no level is left below the top, or a container of the largest size
can be addressed. -/
theorem attains_mostNodes_iff (h : shape.Usable) {depth maxDepth : Nat} :
    (value shape depth maxDepth).Attains Value.nodes (shape.mostNodes (maxDepth - depth)) ↔
      maxDepth ≤ depth ∨ Memory.holds Value.bytes shape.maxChildren.toNat = true := by
  constructor
  · rintro ⟨t, t', v, hrun, hnodes⟩
    have hadmits := (ends_value h (E := fun _ => True) (fun _ => trivial) depth maxDepth).of_ok hrun
    have hheld : v.Held := (ends_valueWithin_held shape (maxDepth - depth)).of_ok hrun
    have hdepth := hadmits.depth_le
    rcases hlevels : maxDepth - depth with _ | levels
    · exact .inl (Nat.le_of_sub_eq_zero hlevels)
    · rw [hlevels] at hnodes
      exact .inr (hadmits.conforms.holds_of_nodes_eq hheld (by omega) hnodes)
  · intro hholds
    rw [← shape.nodes_fullValue]
    exact (reaches_fullValue h (hholds.imp_left Nat.sub_eq_zero_of_le)).attains Value.nodes

theorem attains_document_mostNodes (h : shape.Usable) {maxDepth keys : Nat}
    (htext : Memory.holds letterBytes shape.textLength.toNat = true)
    (hkeys : Memory.holds Mapping.entryBytes keys = true)
    (hholds : maxDepth ≤ 1 ∨ Memory.holds Value.bytes shape.maxChildren.toNat = true) :
    (document shape maxDepth keys).Attains Mapping.nodes (keys * shape.mostNodes (maxDepth - 1)) := by
  rw [← shape.nodes_fullValue, ← Value.entriesNodes_replicate keys shape.fullText]
  exact (reaches_fullDocument h htext hkeys hholds).attains Mapping.nodes

theorem mostNodes_default_le (maxDepth : Nat) : ({} : Shape).mostNodes (maxDepth - 1) ≤ 5 ^ maxDepth := by
  cases maxDepth with
  | zero => exact Nat.le_refl 1
  | succ levels => exact Nat.le_of_lt (Shape.mostNodes_lt (s := {}) (by decide))

/-! ## Bounds on the nodes -/

/-- With a shape that passes its check, a value has at most as many nodes as the full tree with its levels, and on
some words it has as many exactly if there is no level below its top or a container of the largest size can be
addressed. A document has at most as many times more as it has keys, and on some words as many if its keys can be
addressed too. With the default shape this is at most five to the depth, and nothing fails but the addressing of the
keys. -/
theorem nodes_bounded {shape : Shape} (hshape : shape.error? = none) (depth maxDepth keys : Nat) :
    (value shape depth maxDepth : Draw Tape Value).Ends (fun v => v.nodes ≤ shape.mostNodes (maxDepth - depth))
      (fun e => e = .tooLarge ∧ ¬ shape.Addressable) ∧
    ((value shape depth maxDepth).Attains Value.nodes (shape.mostNodes (maxDepth - depth)) ↔
      maxDepth ≤ depth ∨ Memory.holds Value.bytes shape.maxChildren.toNat = true) ∧
    (document shape maxDepth keys : Draw Tape Mapping).Ends
      (fun m => m.nodes ≤ keys * shape.mostNodes (maxDepth - 1))
      (fun e => e = .tooLarge ∧ ¬ (shape.Addressable ∧ Memory.holds Mapping.entryBytes keys = true)) ∧
    (Memory.holds letterBytes shape.textLength.toNat = true → Memory.holds Mapping.entryBytes keys = true →
      maxDepth ≤ 1 ∨ Memory.holds Value.bytes shape.maxChildren.toNat = true →
      (document shape maxDepth keys).Attains Mapping.nodes (keys * shape.mostNodes (maxDepth - 1))) ∧
    (value {} 1 maxDepth : Draw Tape Value).Ends (fun v => v.nodes ≤ 5 ^ maxDepth) (fun _ => False) ∧
    (document {} maxDepth keys : Draw Tape Mapping).Ends (fun m => m.nodes ≤ keys * 5 ^ maxDepth)
      (fun _ => Memory.holds Mapping.entryBytes keys = false) := by
  have hu := Shape.error?_eq_none_iff.1 hshape
  have hdefault : ({} : Shape).Usable := Shape.error?_eq_none_iff.1 (by decide +kernel)
  have hroom : ({} : Shape).Addressable := by decide
  have hmost := mostNodes_default_le maxDepth
  refine ⟨ends_value_nodes hu (fun ha => ⟨rfl, ha⟩) depth maxDepth, attains_mostNodes_iff hu,
    ends_document_nodes hu (fun ha => ⟨rfl, ha⟩), attains_document_mostNodes hu, ?_, ?_⟩
  · refine (ends_value_nodes hdefault (fun hno => hno hroom) 1 maxDepth).mono (fun v hv => ?_) fun _ he => he
    exact Nat.le_trans hv hmost
  · refine (ends_document_nodes hdefault fun hno => ?_).mono (fun m hm => ?_) fun _ he => he
    · exact Bool.eq_false_iff.2 fun hkeys => hno ⟨hroom, hkeys⟩
    · exact Nat.le_trans hm (Nat.mul_le_mul_left keys hmost)

/-- The largest size that can be addressed, with two levels of it below the top. -/
theorem nodes_bounded_largest :
    let shape : Shape := { maxChildren := 0x3ffffffffffffff }
    shape.error? = none ∧
      (value shape 1 3).Attains Value.nodes (1 + 0x3ffffffffffffff + 0x3ffffffffffffff ^ 2) := by
  intro shape
  have hshape : shape.error? = none := by decide +kernel
  have hnodes : shape.mostNodes 2 = 1 + 0x3ffffffffffffff + 0x3ffffffffffffff ^ 2 := by decide +kernel
  refine ⟨hshape, ?_⟩
  rw [← hnodes]
  exact (nodes_bounded hshape 1 3 0).2.1.2 (.inr (by decide))

/-- Containers of the largest number of 64 bits pass the check of the shape and are never drawn. -/
theorem full_tree_not_drawn :
    let shape : Shape := { minChildren := 0xffffffffffffffff, maxChildren := 0xffffffffffffffff }
    shape.error? = none ∧ ¬ (value shape 1 2).Attains Value.nodes (1 + 0xffffffffffffffff) := by
  intro shape
  have hshape : shape.error? = none := by decide +kernel
  have hnodes : shape.mostNodes 1 = 1 + 0xffffffffffffffff := by decide +kernel
  refine ⟨hshape, fun hdrawn => ?_⟩
  rw [← hnodes] at hdrawn
  rcases (attains_mostNodes_iff (Shape.error?_eq_none_iff.1 hshape)).1 hdrawn with hlevels | hholds
  · exact absurd hlevels (by decide)
  · exact absurd hholds (by decide)

end Draw

end Fixtures
