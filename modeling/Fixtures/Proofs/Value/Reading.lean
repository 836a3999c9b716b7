/-
Nested values are read from their texts. Integers, floating-point numbers and texts are told apart, sequences
and mappings keep their order, and a mapping keeps every entry under a repeated key. So no two values have one
text, as long as their floating-point numbers are finite: NaN and the infinities have the text of a null.
-/
import Fixtures.Proofs.Json.Document
import Fixtures.Proofs.Json.Reading
import Fixtures.Value.Json

namespace Fixtures

namespace Value

/-! ## Floating-point numbers of a value -/

mutual

/-- The floating-point numbers anywhere in a value, in order. -/
def floats : Value → List Double
  | float x => [x]
  | sequence items => itemsFloats items
  | mapping entries => entriesFloats entries
  | integer _ | text _ => []

def itemsFloats : List Value → List Double
  | [] => []
  | v :: rest => v.floats ++ itemsFloats rest

def entriesFloats : List (String × Value) → List Double
  | [] => []
  | (_, v) :: rest => v.floats ++ entriesFloats rest

end

theorem mem_itemsFloats {x : Double} : ∀ {items : List Value}, x ∈ itemsFloats items ↔ ∃ v ∈ items, x ∈ v.floats
  | [] => by simp [itemsFloats]
  | v :: rest => by
    have hrest : x ∈ itemsFloats rest ↔ _ := mem_itemsFloats
    simp [itemsFloats, hrest]

theorem mem_entriesFloats {x : Double} :
    ∀ {entries : List (String × Value)}, x ∈ entriesFloats entries ↔ ∃ e ∈ entries, x ∈ e.2.floats
  | [] => by simp [entriesFloats]
  | e :: rest => by
    have hrest : x ∈ entriesFloats rest ↔ _ := mem_entriesFloats
    simp [entriesFloats, hrest]

/-! ## Values of documents -/

mutual

/-- The value of a document: a number written as an integer is one of 64 bits, any other number is read as
the nearest floating-point number. -/
def ofJson? : Json → Option Value
  | .number n =>
    if n.isInteger then (Document.int64? (Json.number n)).map integer else (Json.nearest? (.number n)).map float
  | .string s => some (text s)
  | .array items => (itemsOfJson? items).map sequence
  | .object members => (entriesOfJson? members).map mapping
  | .null | .bool _ | .unpaired => none

def itemsOfJson? : List Json → Option (List Value)
  | [] => some []
  | j :: rest =>
    match ofJson? j, itemsOfJson? rest with
    | some v, some items => some (v :: items)
    | _, _ => none

def entriesOfJson? : List (String × Json) → Option (List (String × Value))
  | [] => some []
  | (k, j) :: rest =>
    match ofJson? j, entriesOfJson? rest with
    | some v, some entries => some ((k, v) :: entries)
    | _, _ => none

end

/-- Reads a value from a text that holds one document. -/
def read? (s : String) : Option Value := (Json.read? s.toList).bind ofJson?

end Value

/-- Reads a mapping from a text that holds one document. -/
def Mapping.read? (s : String) : Option Mapping := (Value.read? s).bind Value.mapping?

namespace Value

/-! ## Documents of values -/

mutual

theorem wellFormed_toJson : ∀ v : Value, v.toJson.WellFormed
  | integer n => by
    rw [toJson]
    exact Json.wellFormed_ofInt n.toInt
  | float x => by
    rw [toJson]
    exact Json.wellFormed_ofDouble x
  | text s => trivial
  | sequence items => by
    rw [toJson, Json.WellFormed]
    exact wellFormed_itemsToJson items
  | mapping entries => by
    rw [toJson, Json.WellFormed]
    exact wellFormed_entriesToJson entries

theorem wellFormed_itemsToJson : ∀ items : List Value, Json.ItemsWellFormed (itemsToJson items)
  | [] => trivial
  | v :: rest => ⟨wellFormed_toJson v, wellFormed_itemsToJson rest⟩

theorem wellFormed_entriesToJson : ∀ entries : List (String × Value), Json.MembersWellFormed (entriesToJson entries)
  | [] => trivial
  | (_, v) :: rest => ⟨wellFormed_toJson v, wellFormed_entriesToJson rest⟩

end

mutual

theorem ofJson?_toJson : ∀ {v : Value}, (∀ x ∈ v.floats, x.isFinite = true) → ofJson? v.toJson = some v
  | integer n, _ => by
    rw [toJson, Json.ofInt, ofJson?, if_pos (Numeral.isInteger_ofInt n.toInt)]
    exact congrArg (Option.map integer) (Document.int64?_ofInt n)
  | float x, h => by
    have hx := h x List.mem_cons_self
    obtain ⟨n, hn, hinteger, -⟩ := Json.ofDouble_of_isFinite hx
    have hnearest := Json.nearest?_ofDouble hx
    rw [hn] at hnearest
    rw [toJson, hn, ofJson?, hinteger, if_neg Bool.false_ne_true, hnearest]
    rfl
  | text s, _ => rfl
  | sequence items, h => by
    rw [toJson, ofJson?, itemsOfJson?_itemsToJson h]
    rfl
  | mapping entries, h => by
    rw [toJson, ofJson?, entriesOfJson?_entriesToJson h]
    rfl

theorem itemsOfJson?_itemsToJson :
    ∀ {items : List Value}, (∀ x ∈ itemsFloats items, x.isFinite = true) → itemsOfJson? (itemsToJson items) = some items
  | [], _ => rfl
  | v :: rest, h => by
    rw [itemsToJson, itemsOfJson?, ofJson?_toJson fun x hx => h x (List.mem_append_left _ hx),
      itemsOfJson?_itemsToJson fun x hx => h x (List.mem_append_right _ hx)]

theorem entriesOfJson?_entriesToJson :
    ∀ {entries : List (String × Value)}, (∀ x ∈ entriesFloats entries, x.isFinite = true) →
      entriesOfJson? (entriesToJson entries) = some entries
  | [], _ => rfl
  | (k, v) :: rest, h => by
    rw [entriesToJson, entriesOfJson?, ofJson?_toJson fun x hx => h x (List.mem_append_left _ hx),
      entriesOfJson?_entriesToJson fun x hx => h x (List.mem_append_right _ hx)]

end

/-! ## Texts of values -/

/-- A value is read from its text, in every layout. -/
theorem read?_text (layout : Json.Layout) {v : Value} (h : ∀ x ∈ v.floats, x.isFinite = true) :
    read? (String.ofList (v.toJson.text layout)) = some v := by
  rw [read?, String.toList_ofList, Json.read?_text (wellFormed_toJson v) layout, Option.bind_some, ofJson?_toJson h]

end Value

theorem Mapping.wellFormed_toJson (m : Mapping) : m.toJson.WellFormed := Value.wellFormed_entriesToJson m

/-- A mapping is read from its text, in every layout. -/
theorem Mapping.read?_text (layout : Json.Layout) {m : Mapping} (h : ∀ x ∈ Value.entriesFloats m, x.isFinite = true) :
    Mapping.read? (String.ofList (m.toJson.text layout)) = some m := by
  have hvalue : Value.read? (String.ofList ((Value.mapping m).toJson.text layout)) = some (.mapping m) :=
    Value.read?_text layout h
  have hdocument : (Value.mapping m).toJson = m.toJson := rfl
  rw [hdocument] at hvalue
  rw [Mapping.read?, hvalue]
  rfl

/-- Values and mappings whose floating-point numbers are finite are read from their texts on one line, with
all variants, texts, keys and numbers, and with every entry in its place. So two of them with one text are the
same. -/
theorem Value.compact_reads_back :
    (∀ v : Value, (∀ x ∈ v.floats, x.isFinite = true) → Value.read? v.toJson.compact = some v) ∧
      (∀ m : Mapping, (∀ x ∈ entriesFloats m, x.isFinite = true) → Mapping.read? m.toJson.compact = some m) ∧
      (∀ v w : Value, (∀ x ∈ v.floats, x.isFinite = true) → (∀ x ∈ w.floats, x.isFinite = true) →
        v.toJson.compact = w.toJson.compact → v = w) ∧
      ∀ m n : Mapping, (∀ x ∈ entriesFloats m, x.isFinite = true) → (∀ x ∈ entriesFloats n, x.isFinite = true) →
        m.toJson.compact = n.toJson.compact → m = n := by
  have hvalue {v : Value} (h : ∀ x ∈ v.floats, x.isFinite = true) : Value.read? v.toJson.compact = some v :=
    Value.read?_text .compact h
  have hmapping {m : Mapping} (h : ∀ x ∈ entriesFloats m, x.isFinite = true) :
      Mapping.read? m.toJson.compact = some m := Mapping.read?_text .compact h
  refine ⟨fun v => hvalue, fun m => hmapping, fun v w hv hw heq => ?_, fun m n hm hn heq => ?_⟩
  · have hread := hvalue hv
    rw [heq, hvalue hw] at hread
    exact (Option.some.inj hread).symm
  · have hread := hmapping hm
    rw [heq, hmapping hn] at hread
    exact (Option.some.inj hread).symm

/-- A mapping with a repeated key, a key that needs escapes, an integer next to a whole floating-point number,
and an empty sequence. -/
theorem Value.compact_reads_back_repeated_keys :
    let m : Mapping := [("k", .integer (-1)), ("k", .float ⟨0xbff0000000000000⟩), ("\"\n", .sequence [])]
    (∀ x ∈ (Value.mapping m).floats, x.isFinite = true) ∧ (∀ x ∈ Value.entriesFloats m, x.isFinite = true) ∧
      Value.read? (Value.mapping m).toJson.compact = some (.mapping m) ∧ Mapping.read? m.toJson.compact = some m := by
  intro m
  have hfinite : ∀ x ∈ Value.entriesFloats m, x.isFinite = true := by decide
  obtain ⟨hvalue, hmapping, -⟩ := Value.compact_reads_back
  exact ⟨hfinite, hfinite, hvalue (.mapping m) hfinite, hmapping m hfinite⟩

end Fixtures
