/-
Tables under construction. Opening a table, or putting a value under a key of one, changes what stands there and
nothing else, but that the tables on the way come up if they are missing.
-/
import Fixtures.Toml.Table

namespace Fixtures.Toml

/-- What is seen of a node from outside. -/
inductive Mark where
  | leaf (v : Toml)
  | table (origin : Origin)
  | tables

namespace Node

def mark : Node → Mark
  | leaf v => .leaf v
  | table origin _ => .table origin
  | tables _ _ => .tables

/-- What stands in the table that a node is, if it is one. -/
def inside : Option Node → Entries
  | some (table _ entries) => entries
  | _ => []

end Node

namespace Entries

variable {path p : List String} {key k : String} {entries root : Entries} {origin : Origin} {node : Node}
  {change : Option Node → Option Node} {v : Toml}

/-- The node under a key of the table at the end of a path. -/
def node? : (path : List String) → (key : String) → Entries → Option Node
  | [], key, entries => entries.lookup key
  | k :: path, key, entries => node? path key (Node.inside (entries.lookup k))

/-- What is seen under a key of the table at the end of a path. -/
def mark? (path : List String) (key : String) (entries : Entries) : Option Mark :=
  (node? path key entries).map Node.mark

theorem node?_empty : node? path key [] = none := by
  induction path with
  | nil => rfl
  | cons k path ih => exact ih

/-! ## One table -/

/-- Changing what stands under a key changes no other key. -/
theorem lookup_alter : ∀ {entries : Entries}, change (entries.lookup key) = some node →
    ∃ entries', alter key change entries = some entries' ∧
      ∀ k, entries'.lookup k = if k = key then some node else entries.lookup k
  | [], h => by
    refine ⟨[(key, node)], by rw [alter, show change none = some node from h]; rfl, fun k => ?_⟩
    rw [List.lookup_cons, List.lookup_nil]
    split <;> simp_all
  | (k₀, old) :: rest, h => by
    rw [alter]
    rw [List.lookup_cons] at h
    by_cases hk : k₀ = key
    · subst hk
      rw [beq_self_eq_true] at h
      refine ⟨(k₀, node) :: rest, by rw [if_pos rfl, h]; rfl, fun k => ?_⟩
      rw [List.lookup_cons, List.lookup_cons]
      split <;> simp_all
    · rw [beq_false_of_ne (Ne.symm hk)] at h
      obtain ⟨rest', hrest, hlookup⟩ := lookup_alter h
      refine ⟨(k₀, old) :: rest', by rw [if_neg hk, hrest]; rfl, fun k => ?_⟩
      rw [List.lookup_cons, List.lookup_cons, hlookup k]
      split <;> simp_all

/-! ## Tables below each other -/

/-- The tables on the way to the end of a path can be entered: what stands there already is a table with a header of
its own or below it. -/
def Enterable (path : List String) (root : Entries) : Prop :=
  ∀ p k, p ++ [k] <+: path → ∀ m, mark? p k root = some m → ∃ origin, origin ≠ .dotted ∧ m = .table origin

/-- Changing one node, with tables that come up on the way, is seen at this node and at those tables alone. What
stood below the node has to stay. -/
theorem within_spec (change : Option Node → Option Node) (node : Node) {change' : Origin → Entries → Option Entries}
    (hchange : ∀ origin entries, origin ≠ .dotted → change' origin entries = alter key change entries) :
    ∀ {path : List String} {origin : Origin} {root : Entries}, origin ≠ .dotted → Enterable path root →
      change (node? path key root) = some node → Node.inside (some node) = Node.inside (node? path key root) →
      ∃ root', within false change' path origin root = some root' ∧
        ∀ p k, mark? p k root' = if p = path ∧ k = key then some node.mark
          else if p ++ [k] <+: path ∧ mark? p k root = none then some (.table .implied) else mark? p k root
  | [], origin, root, horigin, _, hnode, hbelow => by
    obtain ⟨root', halter, hlookup⟩ := lookup_alter hnode
    refine ⟨root', by rw [within, hchange _ _ horigin, halter], fun p k => ?_⟩
    cases p with
    | nil =>
      rw [mark?, node?, hlookup]
      by_cases hk : k = key
      · rw [if_pos hk, if_pos ⟨rfl, hk⟩]; rfl
      · rw [if_neg hk, if_neg fun h => hk h.2, if_neg (by simp)]; rfl
    | cons k₁ p =>
      rw [if_neg (by simp), if_neg (by simp), mark?, node?, hlookup]
      by_cases hk : k₁ = key
      · subst hk
        rw [if_pos rfl, hbelow]
        rfl
      · rw [if_neg hk]
        rfl
  | k₀ :: path, origin, root, _, hway, hnode, hbelow => by
    -- the table to enter, which comes up if it is missing
    obtain ⟨origin₀, horigin₀, hold⟩ : ∃ origin₀, origin₀ ≠ .dotted ∧
        (root.lookup k₀ = none ∧ origin₀ = .implied ∨
          ∃ entries, root.lookup k₀ = some (.table origin₀ entries)) := by
      cases hlookup : root.lookup k₀ with
      | none => exact ⟨.implied, by decide, .inl ⟨rfl, rfl⟩⟩
      | some old =>
        obtain ⟨origin₀, horigin₀, hmark⟩ := hway [] k₀ (by simp) old.mark (by rw [mark?, node?, hlookup]; rfl)
        cases old with
        | table origin entries => cases hmark; exact ⟨_, horigin₀, .inr ⟨entries, rfl⟩⟩
        | leaf | tables => cases hmark
    have hwayBelow : Enterable path (Node.inside (root.lookup k₀)) := fun p k hp =>
      hway (k₀ :: p) k (List.cons_prefix_cons.2 ⟨rfl, hp⟩)
    obtain ⟨below', hwithin, hmark⟩ := within_spec change node hchange horigin₀ hwayBelow hnode hbelow
    obtain ⟨root', halter, hlookup⟩ : ∃ root', within false change' (k₀ :: path) origin root = some root' ∧
        ∀ k, root'.lookup k = if k = k₀ then some (.table origin₀ below') else root.lookup k := by
      rw [within]
      apply lookup_alter
      rcases hold with ⟨hold, rfl⟩ | ⟨entries, hold⟩ <;> rw [hold] at hwithin ⊢
      · exact congrArg (Option.map (Node.table .implied)) hwithin
      · exact congrArg (Option.map (Node.table origin₀)) hwithin
    refine ⟨root', halter, fun p k => ?_⟩
    cases p with
    | nil =>
      rw [if_neg (by simp), mark?, node?, hlookup]
      by_cases hk : k = k₀
      · subst hk
        rw [if_pos rfl, mark?, node?]
        rcases hold with ⟨hold, rfl⟩ | ⟨entries, hold⟩ <;> rw [hold]
        · rw [if_pos (by simp)]; rfl
        · rw [if_neg (by simp)]; rfl
      · rw [if_neg hk, if_neg (by simp [hk])]; rfl
    | cons k₁ p =>
      rw [mark?, node?, hlookup]
      by_cases hk : k₁ = k₀
      · subst hk
        rw [if_pos rfl]
        have := hmark p k
        simp only [List.cons.injEq, true_and, List.cons_append, List.cons_prefix_cons]
        exact this
      · rw [if_neg hk, if_neg (by simp [hk]), if_neg (by simp [hk])]; rfl

/-- Opening a table that is missing, or that came up on the way to one below it. -/
theorem openTable_spec (hway : Enterable path root)
    (hnew : mark? path key root = none ∨ mark? path key root = some (.table .implied)) :
    ∃ root', openTable (path ++ [key]) root = some root' ∧
      ∀ p k, mark? p k root' = if p = path ∧ k = key then some (.table .stated)
        else if p ++ [k] <+: path ∧ mark? p k root = none then some (.table .implied) else mark? p k root := by
  unfold openTable
  rw [List.getLast?_concat, List.dropLast_concat]
  refine within_spec _ (.table .stated (Node.inside (node? path key root))) (fun _ _ _ => rfl) (by decide) hway ?_ rfl
  rw [mark?] at hnew
  generalize node? path key root = old at hnew
  rcases hnew with hnew | hnew
  · rw [Option.map_eq_none_iff.1 hnew]
    rfl
  · obtain ⟨node, rfl, hmark⟩ := Option.map_eq_some_iff.1 hnew
    cases node with
    | table origin entries =>
      cases hmark
      rfl
    | leaf | tables => cases hmark

/-- Putting a value under a new key of a table. -/
theorem putBelow_spec (v : Toml) (hway : Enterable path root) (hnew : mark? path key root = none) :
    ∃ root', putBelow path [key] v root = some root' ∧
      ∀ p k, mark? p k root' = if p = path ∧ k = key then some (.leaf v)
        else if p ++ [k] <+: path ∧ mark? p k root = none then some (.table .implied) else mark? p k root := by
  have hnone : node? path key root = none := Option.map_eq_none_iff.1 hnew
  have hput : ∀ origin entries, origin ≠ .dotted →
      put [key] v origin entries = alter key (fun old => old.elim (some (.leaf v)) fun _ => none) entries := by
    intro origin entries horigin
    refine (if_neg (by cases origin <;> simp_all)).trans ?_
    exact congrArg (alter key · entries) (funext fun old => by cases old <;> rfl)
  exact within_spec _ (.leaf v) hput (by decide) hway (by rw [hnone]; rfl) (by rw [hnone]; rfl)

/-! ## Complete tables -/

theorem lookup_closeEntries (key : String) :
    ∀ entries : Entries, (closeEntries entries).lookup key = (entries.lookup key).map Node.close
  | [] => rfl
  | (k, node) :: rest => by
    rw [closeEntries, List.lookup_cons, List.lookup_cons, lookup_closeEntries key rest]
    split <;> rfl

end Entries

end Fixtures.Toml
