/-
Ledger rows and nested values as records of CSV.
-/
import Fixtures.Csv.Record
import Fixtures.Decimal.Shortest
import Fixtures.Record.Ledger
import Fixtures.Value.Basic

namespace Fixtures

namespace Csv

/-- CSV writes numbers positionally from 0.00001 up to but not including 10 to the power 16; a
positive exponent has no sign. -/
def floatStyle : FloatStyle := ⟨-5, 15, false⟩

end Csv

/-- The record of a ledger row. -/
def LedgerRow.toCsv (r : LedgerRow) : Csv.Record := {
  fields := [r.date.toList, r.name.toList, r.description.toList, intDigits r.randomSum.toInt,
    r.randomAverage.text Csv.floatStyle, r.randomDecimals.text Csv.floatStyle] }

namespace Value

mutual

/-- The record of a value: the fields of a sequence are those of its items, and a scalar is a field.
A mapping ends the record. -/
def toCsv : Value → Csv.Record
  | integer n => ⟨[intDigits n.toInt], true⟩
  | float x => ⟨[x.text Csv.floatStyle], true⟩
  | text s => ⟨[s.toList], true⟩
  | sequence items => itemsToCsv items
  | mapping _ => ⟨[], false⟩

def itemsToCsv : List Value → Csv.Record
  | [] => ⟨[], true⟩
  | v :: rest =>
    let first := v.toCsv
    if first.complete then
      let others := itemsToCsv rest
      ⟨first.fields ++ others.fields, others.complete⟩
    else first

end

end Value

end Fixtures
