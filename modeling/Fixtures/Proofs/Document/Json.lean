/-
Reading JSON documents. The leaves of a document are read as they were written, and an object whose members are the
fields of a record, in order and each once, gives these fields. This holds of the documents themselves and of the same
documents in another wrapping, in which floating-point numbers are read in a way of its own.
-/
import Fixtures.Proofs.Calendar.Reading
import Fixtures.Proofs.Json.Document
import Fixtures.Proofs.Text.Utf8
import Fixtures.Options.Reader

namespace Fixtures.Json

variable {τ : Type} [Document τ] {wrap : Json → τ}

/-- Documents in a wrapping from which all but floating-point numbers is read as from the documents. -/
structure Wrapping (wrap : Json → τ) : Prop where
  fields? : ∀ names j, Document.fields? names (wrap j) =
    (Document.fields? names j).map fun fields => fields.map fun (name, v) => (name, wrap v)
  isNull : ∀ j, Document.isNull (wrap j) = Document.isNull j
  integer? : ∀ j, Document.integer? (wrap j) = Document.integer? j
  text? : ∀ j, Document.text? (wrap j) = Document.text? j
  bool? : ∀ j, Document.bool? (wrap j) = Document.bool? j

/-- Documents as they are. -/
theorem wrapping_id : Wrapping (id : Json → Json) where
  fields? names j := by simp
  isNull _ := rfl
  integer? _ := rfl
  text? _ := rfl
  bool? _ := rfl

/-- Documents whose floating-point numbers are read as the nearest ones. -/
theorem wrapping_exact : Wrapping Exact.mk where
  fields? _ _ := rfl
  isNull _ := rfl
  integer? _ := rfl
  text? _ := rfl
  bool? _ := rfl

/-- The text of a floating-point number is read as the number. NaN and the infinities have the text of a null. -/
def ReadsBack (wrap : Json → τ) (x : Double) : Prop := Document.double? (wrap (ofDouble x)) = some x

instance (x : Double) : Decidable (ReadsBack wrap x) :=
  inferInstanceAs (Decidable (Document.double? (wrap (ofDouble x)) = some x))

theorem readsBack_exact {x : Double} (hx : x.isFinite = true) : ReadsBack Exact.mk x := nearest?_ofDouble hx

namespace Wrapping

/-! ## Fields -/

/-- An object that has the fields of a record in order gives these fields. -/
theorem object (hwrap : Wrapping wrap) {names : List String} {members : List (String × Json)}
    (hnames : members.map Prod.fst = names) (honce : names.Nodup) :
    Document.fields? names (wrap (object members)) = some (members.map fun (name, v) => (name, wrap v)) := by
  have hknown : (members.filter fun (name, _) => name ∈ names) = members := by
    rw [List.filter_eq_self]
    rintro ⟨name, v⟩ hmem
    exact decide_eq_true (hnames ▸ List.mem_map_of_mem hmem)
  have hfields : Document.fields? names (Json.object members) = some members := by
    show knownMembers? names members = some members
    rw [knownMembers?, hknown]
    exact if_pos (hnames ▸ honce)
  rw [hwrap.fields?, hfields]
  rfl

/-! ## Leaves -/

theorem integerIn? (hwrap : Wrapping wrap) {low high n : Int} (hlow : low ≤ n) (hhigh : n ≤ high) :
    Document.integerIn? low high (wrap (ofInt n)) = some n := by
  rw [Document.integerIn?, hwrap.integer?]
  exact Document.integerIn?_ofInt hlow hhigh

theorem int64? (hwrap : Wrapping wrap) (n : Int64) : Document.int64? (wrap (ofInt n.toInt)) = some n := by
  rw [← Document.int64?_ofInt n, Document.int64?, Document.int64?, Document.integerIn?, Document.integerIn?,
    hwrap.integer?]

theorem int32? (hwrap : Wrapping wrap) (n : Int32) : Document.int32? (wrap (ofInt n.toInt)) = some n := by
  have hlow := n.le_toInt
  have hhigh := n.toInt_lt
  rw [Document.int32?, hwrap.integerIn? (by omega) (by omega), Option.map_some, Int32.ofInt_toInt]

theorem uint64? (hwrap : Wrapping wrap) (n : UInt64) : Document.uint64? (wrap (ofInt n.toNat)) = some n := by
  have hlt := n.toNat_lt
  rw [Document.uint64?, hwrap.integerIn? (by omega) (by omega), Option.map_some, Int.toNat_natCast, UInt64.ofNat_toNat]

theorem uint32? (hwrap : Wrapping wrap) (n : UInt32) : Document.uint32? (wrap (ofInt n.toNat)) = some n := by
  have hlt := n.toNat_lt
  rw [Document.uint32?, hwrap.integerIn? (by omega) (by omega), Option.map_some, Int.toNat_natCast, UInt32.ofNat_toNat]

theorem uint8? (hwrap : Wrapping wrap) (n : UInt8) : Document.uint8? (wrap (ofInt n.toNat)) = some n := by
  have hlt := n.toNat_lt
  rw [Document.uint8?, hwrap.integerIn? (by omega) (by omega), Option.map_some, Int.toNat_natCast, UInt8.ofNat_toNat]

theorem string (hwrap : Wrapping wrap) (s : String) : Document.text? (wrap (.string s)) = some s := hwrap.text? _

theorem bool (hwrap : Wrapping wrap) (b : Bool) : Document.bool? (wrap (.bool b)) = some b := hwrap.bool? _

/-- A path that is a text. -/
theorem path (hwrap : Wrapping wrap) {p : Path} {j : Json} (hp : p.toJson? = some j) :
    Path.ofDocument? (wrap j) = some p := by
  obtain ⟨s, hs, rfl⟩ := Option.map_eq_some_iff.1 hp
  rw [Path.ofDocument?, hwrap.string, Option.map_some, ← Path.text?_eq_some_iff.1 hs]

/-- Instants of the whole calendar, with every fraction and leap seconds too. -/
theorem moment (hwrap : Wrapping wrap) (t : DateTime) :
    DateTime.ofDocument? (wrap (.string (String.ofList t.text))) = some t.asRead := by
  rw [DateTime.ofDocument?, hwrap.string]
  show DateTime.read? (String.ofList t.text).toList = some t.asRead
  rw [String.toList_ofList, DateTime.read?_text]

/-- A value that may be missing: it is no null if it is there. -/
theorem nullable (hwrap : Wrapping wrap) {α β : Type} {f : α → Json} {g : α → β} {read : τ → Option β}
    (hread : ∀ a, read (wrap (f a)) = some (g a)) (hnull : ∀ a, Document.isNull (f a) = false) (a : Option α) :
    Document.nullable read (wrap (ofOption f a)) = some (a.map g) := by
  rw [Document.nullable, hwrap.isNull]
  cases a with
  | none => rfl
  | some a =>
    rw [ofOption, Option.map_some, Option.getD_some, hnull, if_neg Bool.false_ne_true, hread]
    rfl

/-- A path that may be missing. -/
theorem pathOrNull (hwrap : Wrapping wrap) {p : Option Path} {j : Json} (hp : Path.orNull? p = some j) :
    Document.nullable Path.ofDocument? (wrap j) = some p := by
  rw [Document.nullable, hwrap.isNull]
  cases p with
  | none =>
    cases hp
    rfl
  | some p =>
    have hread := hwrap.path hp
    obtain ⟨s, -, rfl⟩ := Option.map_eq_some_iff.1 hp
    exact congrArg (Option.map some) hread

end Wrapping

end Fixtures.Json
