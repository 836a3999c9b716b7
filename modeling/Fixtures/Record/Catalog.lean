/-
Catalog entries, the items of the JSON array fixture.
-/
import Fixtures.Random.Text
import Fixtures.Random.Calendar
import Fixtures.Calendar.Text
import Fixtures.Text.Uppercase
import Fixtures.Json.Basic

namespace Fixtures

/-- A catalog entry. -/
structure CatalogEntry where
  name : String
  description : String
  year : Int32
  created : String
  randomNumber : Int64
  score : Double
  deriving DecidableEq, Inhabited

namespace CatalogEntry

/-- The name of the generator of catalog entries. -/
def generator : String := "record.catalog_entry"

/-- The first day on which an entry may be created. -/
def createdFrom : Date := ⟨daysBeforeYear 2000, by decide, by decide⟩

/-- The last day on which an entry may be created, the last one of 2025. -/
def createdTo : Date := ⟨daysBeforeYear 2026 - 1, by decide, by decide⟩

/-- Both bounds of the year. -/
def yearFrom : Int := 1990

def yearTo : Int := 2025

/-- 0 and 100, between which scores lie. -/
def scoreFrom : Double := ⟨0⟩

def scoreTo : Double := ⟨0x4059000000000000⟩

/-- A random entry. -/
def draw {σ : Type} [WordSource σ] : Draw σ CatalogEntry := do
  let name ← Draw.lowercase 6
  let words ← Draw.replicate 3 (Draw.lowercase 5)
  let year ← Draw.integer .narrow yearFrom yearTo
  let created ← Draw.date createdFrom createdTo
  let number ← Draw.integer .wide 1 1000
  let score ← Draw.roundedFloat scoreFrom scoreTo 2
  return {
    name := String.ofList (capitalize name)
    description := " ".intercalate (words.map String.ofList)
    year := .ofInt year
    created := String.ofList created.text
    randomNumber := .ofInt number
    score := score }

/-- The bytes that an entry takes in a list. -/
def bytes : Nat := 96

/-- A number of random entries. -/
def drawList {σ : Type} [WordSource σ] (n : Nat) : Draw σ (List CatalogEntry) := Draw.list bytes n draw

def toJson (e : CatalogEntry) : Json := .object [
  ("name", .string e.name),
  ("description", .string e.description),
  ("year", .ofInt e.year.toInt),
  ("created", .string e.created),
  ("random_number", .ofInt e.randomNumber.toInt),
  ("score", .ofDouble e.score)]

end CatalogEntry

end Fixtures
