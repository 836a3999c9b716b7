/-
Person records, the lines of the NDJSON fixture.
-/
import Fixtures.Random.Text
import Fixtures.Random.Calendar
import Fixtures.Calendar.Text
import Fixtures.Json.Basic

namespace Fixtures

/-- A person record. -/
structure PersonRecord where
  id : String
  name : String
  age : UInt8
  score : Double
  active : Bool
  createdAt : String
  deriving DecidableEq, Inhabited

namespace PersonRecord

/-- The name of the generator of person records. -/
def generator : String := "record.person"

/-- The names that a person may have. -/
def names : List String := ["Alice", "Bob", "Charlie", "Diana", "Eve", "Frank"]

/-- The start of 2020, from which on a record may be created. -/
def createdFrom : DateTime := .startOf ⟨daysBeforeYear 2020, by decide, by decide⟩

/-- The start of 2025, before which a record is created. -/
def createdBefore : DateTime := .startOf ⟨daysBeforeYear 2025, by decide, by decide⟩

/-- Both bounds of the age. -/
def ageFrom : Int := 18

def ageTo : Int := 80

/-- 0 and 100, between which scores lie. -/
def scoreFrom : Double := ⟨0⟩

def scoreTo : Double := ⟨0x4059000000000000⟩

/-- A random record. -/
def draw {σ : Type} [WordSource σ] : Draw σ PersonRecord := do
  let id ← Draw.uuid
  let name ← Draw.pick names
  let age ← Draw.integer .narrow ageFrom ageTo
  let score ← Draw.roundedFloat scoreFrom scoreTo 2
  let active ← Draw.coin
  let created ← Draw.dateTime createdFrom createdBefore
  return {
    id := String.ofList id
    name := name
    age := .ofNat age.toNat
    score := score
    active := active
    createdAt := String.ofList created.microsText }

/-- The bytes that a record takes in a list. -/
def bytes : Nat := 88

/-- A number of random records. -/
def drawList {σ : Type} [WordSource σ] (n : Nat) : Draw σ (List PersonRecord) := Draw.list bytes n draw

def toJson (p : PersonRecord) : Json := .object [
  ("id", .string p.id),
  ("name", .string p.name),
  ("age", .ofInt p.age.toNat),
  ("score", .ofDouble p.score),
  ("active", .bool p.active),
  ("created_at", .string p.createdAt)]

end PersonRecord

end Fixtures
