/-
The leaves of documents: an integer or a finite floating-point number is read as it was written. For the
floating-point numbers this holds of the nearest reading, which is a way to read documents of its own.
-/
import Fixtures.Json.Document
import Fixtures.Proofs.Decimal.Numeral
import Fixtures.Proofs.Json.Reading

namespace Fixtures

namespace Json

/-! ## Well-formed leaves -/

theorem wellFormed_ofInt (n : Int) : (ofInt n).WellFormed := by
  rw [ofInt, WellFormed]
  exact Numeral.wellFormed_ofInt n

theorem wellFormed_ofDouble (x : Double) : (ofDouble x).WellFormed := by
  unfold ofDouble
  cases hnumeral : x.numeral? floatStyle with
  | none => trivial
  | some n =>
    rw [Option.map_some, Option.getD_some, WellFormed]
    exact Double.wellFormed_of_numeral? hnumeral

/-! ## Numbers -/

/-- The floating-point number nearest to a numeral, unless it is infinite. -/
def nearest? : Json → Option Double
  | number n => if n.nearest.isFinite then some n.nearest else none
  | _ => none

theorem ofDouble_of_isFinite {x : Double} (hx : x.isFinite = true) :
    ∃ n, ofDouble x = number n ∧ n.isInteger = false ∧ n.nearest = x := by
  have hnumeral : x.numeral? floatStyle = some (x.shortest.numeral floatStyle x.negative) := by
    unfold Double.numeral?
    rw [if_pos hx]
  refine ⟨_, ?_, Double.isInteger_of_numeral? hnumeral, Double.nearest_of_numeral? hnumeral⟩
  rw [ofDouble, hnumeral]
  rfl

theorem nearest?_ofDouble {x : Double} (hx : x.isFinite = true) : nearest? (ofDouble x) = some x := by
  obtain ⟨n, hn, -, hnearest⟩ := ofDouble_of_isFinite hx
  rw [hn, nearest?, hnearest, if_pos hx]

theorem toInteger?_ofInt (n : Int) : toInteger? (ofInt n) = some n := by
  have hzero : ((Numeral.ofInt n).negative && (Numeral.ofInt n).toInt == 0) = false := by
    rw [Numeral.toInt_ofInt]
    simp only [Numeral.ofInt, Bool.and_eq_false_iff, decide_eq_false_iff_not, beq_eq_false_iff_ne]
    omega
  rw [ofInt, toInteger?, Numeral.isInteger_ofInt, hzero, Numeral.toInt_ofInt]
  rfl

end Json

/-! ## Integers of a width -/

namespace Document

theorem integerIn?_ofInt {low high n : Int} (hlow : low ≤ n) (hhigh : n ≤ high) :
    integerIn? low high (Json.ofInt n) = some n := by
  unfold integerIn?
  rw [show integer? (Json.ofInt n) = some n from Json.toInteger?_ofInt n]
  simp only
  rw [if_pos ⟨hlow, hhigh⟩]

theorem int64?_ofInt (n : Int64) : int64? (Json.ofInt n.toInt) = some n := by
  have hlow := n.le_toInt
  have hhigh := n.toInt_lt
  rw [int64?, integerIn?_ofInt (by omega) (by omega), Option.map_some, Int64.ofInt_toInt]

end Document

/-! ## Documents read exactly -/

/-- A document whose floating-point numbers are read as the nearest ones. -/
structure Json.Exact where
  json : Json

namespace Json.Exact

instance : Document Exact where
  fields? names d := (Document.fields? names d.json).map fun fields => fields.map fun (name, v) => (name, ⟨v⟩)
  isNull d := Document.isNull d.json
  integer? d := Document.integer? d.json
  double? d := nearest? d.json
  text? d := Document.text? d.json
  bool? d := Document.bool? d.json

end Json.Exact

end Fixtures
