/-
Reading records from documents. All fields must be there.
-/
import Fixtures.Document
import Fixtures.Record.Catalog
import Fixtures.Record.Ledger
import Fixtures.Record.Person

namespace Fixtures

open Document

variable {τ : Type} [Document τ]

def CatalogEntry.fieldNames : List String :=
  ["name", "description", "year", "created", "random_number", "score"]

def CatalogEntry.ofDocument? (v : τ) : Option CatalogEntry := do
  let fields ← fields? CatalogEntry.fieldNames v
  return {
    name := ← required fields "name" text?
    description := ← required fields "description" text?
    year := ← required fields "year" int32?
    created := ← required fields "created" text?
    randomNumber := ← required fields "random_number" int64?
    score := ← required fields "score" double? }

def PersonRecord.fieldNames : List String := ["id", "name", "age", "score", "active", "created_at"]

def PersonRecord.ofDocument? (v : τ) : Option PersonRecord := do
  let fields ← fields? PersonRecord.fieldNames v
  return {
    id := ← required fields "id" text?
    name := ← required fields "name" text?
    age := ← required fields "age" uint8?
    score := ← required fields "score" double?
    active := ← required fields "active" bool?
    createdAt := ← required fields "created_at" text? }

/-- The names of the fields of a ledger row, which are also those of the columns. -/
def LedgerRow.fieldNames : List String := LedgerRow.header

def LedgerRow.ofDocument? (v : τ) : Option LedgerRow := do
  let fields ← fields? LedgerRow.fieldNames v
  return {
    date := ← required fields "date" text?
    name := ← required fields "name" text?
    description := ← required fields "description" text?
    randomSum := ← required fields "random_sum" int64?
    randomAverage := ← required fields "random_average" double?
    randomDecimals := ← required fields "random_decimals" double? }

end Fixtures
