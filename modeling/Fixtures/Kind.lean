/-
The kinds of fixture that can be generated, with their names in the different places where a kind
is named: on the command line, in file names, in messages and in serialized documents.
-/

namespace Fixtures

/-- The fixture files that can be generated. -/
inductive Kind where
  /-- A random nested JSON document. -/
  | nested
  /-- A JSON array of catalog entries. -/
  | array
  /-- Person records, one JSON document a line. -/
  | ndjson
  /-- Ledger rows below a header. -/
  | csv
  deriving DecidableEq, Inhabited, Repr

namespace Kind

/-- All kinds, in the order in which a full run writes them. -/
def all : List Kind := [nested, array, ndjson, csv]

theorem mem_all (k : Kind) : k ∈ all := by cases k <;> decide

/-- The stable identifier, which is also the name of the subcommand. -/
def id : Kind → String
  | nested => "json"
  | array => "json-array"
  | ndjson => "ndjson"
  | csv => "csv"

/-- The name of the file below the output directory. -/
def fileName : Kind → String
  | nested => "random_nested.json"
  | array => "random_array.json"
  | ndjson => "random_data.ndjson"
  | csv => "random_data.csv"

/-- The name in messages. -/
def label : Kind → String
  | nested => "Random nested JSON"
  | array => "Random JSON array"
  | ndjson => "NDJSON"
  | csv => "CSV"

/-- The name in serialized documents. -/
def serialName : Kind → String
  | nested => "nested-json"
  | array => "json-array"
  | ndjson => "ndjson"
  | csv => "csv"

def ofId? (s : String) : Option Kind := all.find? (·.id == s)

def ofSerialName? (s : String) : Option Kind := all.find? (·.serialName == s)

/-- The place of a kind in `all`. -/
def index (k : Kind) : Nat := all.idxOf k

end Kind

/-! ## Seeds -/

/-- One step of the seed hash: the byte is mixed in and the product spreads it. -/
def mixByte (hash : UInt64) (byte : UInt8) : UInt64 := (hash ^^^ byte.toUInt64) * 0x100000001b3

/-- The seed that a run seed gives for a key: the run seed in the offset basis of a 64-bit
xor-and-multiply hash, and the bytes of the key mixed in one by one. -/
def hashSeed (seed : UInt64) (key : List UInt8) : UInt64 :=
  key.foldl mixByte (seed ^^^ 0xcbf29ce484222325)

/-- The seed of one fixture of a run. -/
def Kind.seed (k : Kind) (runSeed : UInt64) : UInt64 :=
  hashSeed runSeed k.id.toUTF8.data.toList

end Fixtures
