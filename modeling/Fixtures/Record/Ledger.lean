/-
Ledger rows, the rows of the CSV fixture, dated within a window of days that ends at an instant.
-/
import Fixtures.Random.Text
import Fixtures.Random.Calendar
import Fixtures.Calendar.Text
import Fixtures.Json.Basic

namespace Fixtures

/-- A ledger row. The order of its fields is that of the columns. -/
structure LedgerRow where
  date : String
  name : String
  description : String
  randomSum : Int64
  randomAverage : Double
  randomDecimals : Double
  deriving DecidableEq, Inhabited

/-- The instants between which ledger rows are dated. -/
structure LedgerWindow where
  start : DateTime
  stop : DateTime
  deriving DecidableEq, Inhabited

namespace LedgerWindow

/-- The window of a number of days before an instant, if the number is not negative and the window
does not reach beyond the calendar. -/
def ofSpan? (stop : DateTime) (days : Int64) : Option LedgerWindow :=
  if days < 0 then none
  else (stop.add? (-(days.toInt * 86400000000000))).map fun start => ⟨start, stop⟩

end LedgerWindow

namespace LedgerRow

/-- The name of the generator of ledger rows. -/
def generator : String := "record.ledger_row"

/-- The names of the columns. -/
def header : List String :=
  ["date", "name", "description", "random_sum", "random_average", "random_decimals"]

/-- The words of descriptions. -/
def words : List String :=
  ["alpha", "beta", "gamma", "delta", "omega", "sigma", "lambda", "theta", "zeta"]

/-- 10 and 1000, between which averages lie. -/
def averageFrom : Double := ⟨0x4024000000000000⟩

def averageTo : Double := ⟨0x408f400000000000⟩

/-- A part of a name: an uppercase letter and some lowercase ones. -/
def drawNamePart {σ : Type} [WordSource σ] (least most : Nat) : Draw σ (List Char) := do
  let length ← Draw.size least most
  let first ← Draw.uppercase 1
  let rest ← Draw.lowercase length
  return first ++ rest

/-- A random row within a window. -/
def draw {σ : Type} [WordSource σ] (window : LedgerWindow) : Draw σ LedgerRow := do
  let instant ← Draw.dateTimeSeconds window.start window.stop
  let first ← drawNamePart 3 7
  let last ← drawNamePart 4 8
  let count ← Draw.integer .narrow 5 12
  let description ← Draw.replicate count.toNat (Draw.pick words)
  let sum ← Draw.integer .wide 100 10000
  let average ← Draw.roundedFloat averageFrom averageTo 2
  let decimals ← Draw.fraction
  return {
    date := String.ofList instant.date.text
    name := String.ofList (first ++ ' ' :: last)
    description := " ".intercalate description
    randomSum := .ofInt sum
    randomAverage := average
    randomDecimals := decimals.roundTo 6 }

/-- The bytes that a row takes in a list. -/
def bytes : Nat := 96

/-- A number of random rows within a window. -/
def drawList {σ : Type} [WordSource σ] (window : LedgerWindow) (n : Nat) : Draw σ (List LedgerRow) :=
  Draw.list bytes n (draw window)

def toJson (r : LedgerRow) : Json := .object [
  ("date", .string r.date),
  ("name", .string r.name),
  ("description", .string r.description),
  ("random_sum", .ofInt r.randomSum.toInt),
  ("random_average", .ofDouble r.randomAverage),
  ("random_decimals", .ofDouble r.randomDecimals)]

end LedgerRow

end Fixtures
