/-
What the command line knows: its subcommands, the flags of each, and the flags that all share.
-/

namespace Fixtures.CommandLine

/-- What the value of a flag has to be. -/
inductive FlagType where
  | number
  | path
  deriving DecidableEq

/-- A flag that takes a value. -/
structure Flag where
  name : String
  type : FlagType
  /-- How help calls the value. -/
  value : String
  /-- What the flag is for. -/
  about : String
  deriving DecidableEq

/-- The flags that may stand before and behind every subcommand. -/
def globalFlags : List Flag := [
  ⟨"config", .path, "PATH", "TOML settings file (defaults to ./fixturegen.toml when present)"⟩,
  ⟨"seed", .number, "SEED", "Seed for reproducible output"⟩,
  ⟨"out-dir", .path, "DIR", "Directory fixtures are written to"⟩,
  ⟨"log-file", .path, "PATH", "Append JSON logs to this file instead of stderr"⟩,
  ⟨"report", .path, "PATH", "Write the run reports as JSON"⟩]

/-- The flag for the path of one fixture. -/
def outFlag : Flag := ⟨"out", .path, "OUT", "Output file"⟩

/-- The flag for the number of records. -/
def countFlag : Flag := ⟨"count", .number, "COUNT", "Number of records"⟩

/-- The flags of a subcommand alone. -/
def ownFlags (command : String) : List Flag :=
  if command = "json" then
    [⟨"max-depth", .number, "MAX_DEPTH", "Maximum nesting depth (>= 1)"⟩,
      ⟨"num-keys", .number, "NUM_KEYS", "Number of top-level keys"⟩, outFlag]
  else if command = "json-array" ∨ command = "ndjson" then [countFlag, outFlag]
  else if command = "csv" then [⟨"rows", .number, "ROWS", "Number of data rows"⟩, outFlag]
  else []

/-- The subcommands, with what they do. -/
def commands : List (String × String) := [
  ("json", "Random nested JSON document"),
  ("json-array", "JSON array of fixed-schema objects"),
  ("ndjson", "Newline-delimited JSON records"),
  ("csv", "CSV rows with a header"),
  ("all", "Every fixture, written into --out-dir")]

def commandNames : List String := commands.map Prod.fst

/-- What the subcommand does that asks for help. -/
def helpAbout : String := "Print this message or the help of the given subcommand(s)"

end Fixtures.CommandLine
