/-
The arguments of the command line: a subcommand for each kind or for all, flags of its own behind it,
and flags that may stand anywhere.
-/
import Fixtures.CommandLine.Grammar
import Fixtures.Decimal.Numeral
import Fixtures.Options

namespace Fixtures

/-- The flags that every subcommand shares. -/
structure Globals where
  config : Option Path := none
  seed : Option UInt64 := none
  outDir : Option Path := none
  logFile : Option Path := none
  report : Option Path := none
  deriving DecidableEq, Inhabited

/-- A subcommand with its flags. -/
inductive Command where
  | nested (maxDepth keys : Option UInt64) (out : Option Path)
  | array (count : Option UInt64) (out : Option Path)
  | ndjson (count : Option UInt64) (out : Option Path)
  | csv (rows : Option UInt64) (out : Option Path)
  | all
  deriving DecidableEq, Inhabited

/-- What the command line says. -/
structure Arguments where
  globals : Globals
  command : Command
  deriving DecidableEq, Inhabited

/-- The reasons for which arguments are not acted on. -/
inductive UsageError where
  /-- They ask for help on a subcommand, or on the program. -/
  | help (topic : Option String)
  /-- They ask for the version. -/
  | version
  | invalid
  deriving DecidableEq, Repr

namespace Arguments

open CommandLine (Flag FlagType globalFlags ownFlags commandNames)

/-! ## Values of flags -/

/-- A number of 64 bits in decimal digits; a plus may stand before them. -/
def number? (cs : List Char) : Option UInt64 :=
  let digits := match cs with
    | '+' :: rest => rest
    | cs => cs
  if digits.isEmpty || !digits.all Char.isDigit then none
  else if digitsValue digits < UInt64.size then some (.ofNat (digitsValue digits))
  else none

/-- Whether a text is a value of a type. -/
def admits : FlagType → List Char → Bool
  | .number, cs => (number? cs).isSome
  | .path, cs => !cs.isEmpty

/-! ## One level -/

/-- The flags of one level that were read so far. -/
structure Level where
  /-- The values that are settled. -/
  values : List (String × List Char)
  /-- The last flag, and its value if it has come. -/
  pending : Option (Flag × Option (List Char))

namespace Level

def empty : Level := ⟨[], none⟩

/-- Whether the last flag waits for its value. -/
def waits (l : Level) : Bool :=
  match l.pending with
  | some (_, none) => true
  | _ => false

/-- Settles the last flag: it needs a value of its type, and may not have come before. -/
def settle (l : Level) : Except UsageError Level :=
  match l.pending with
  | none => .ok l
  | some (_, none) => .error .invalid
  | some (flag, some value) =>
    if (l.values.lookup flag.name).isSome || !admits flag.type value then .error .invalid
    else .ok ⟨l.values ++ [(flag.name, value)], none⟩

/-- Refuses the arguments for a request, unless the last flag refuses them before. -/
def request (e : UsageError) (l : Level) : Except UsageError Level :=
  match l.settle with
  | .error e => .error e
  | .ok _ => .error e

/-- Reads a flag, with a value if one is attached, after the one before it was settled. `command` is
the subcommand to which the level belongs; the program's own level has a flag for the version. -/
def flag (flags : List Flag) (command : Option String) (name : List Char)
    (attached : Option (List Char)) (l : Level) : Except UsageError Level :=
  let name := String.ofList name
  if name = "help" ∨ (command = none ∧ name = "version") then
    match attached with
    | some _ => .error .invalid
    | none => l.request (if name = "help" then .help command else .version)
  else match flags.find? (·.name == name) with
    | none => .error .invalid
    | some flag =>
      match l.settle with
      | .error e => .error e
      | .ok l =>
        match attached with
        | none => .ok { l with pending := some (flag, none) }
        | some value => settle { l with pending := some (flag, some value) }

/-- Reads a flag of one letter. -/
def letter (command : Option String) (c : Char) (l : Level) : Except UsageError Level :=
  if c = 'h' then l.request (.help command)
  else if command = none ∧ c = 'V' then l.request .version
  else .error .invalid

/-- Reads a text that is neither flag nor subcommand: the value for which the last flag waits. -/
def plain (cs : List Char) (l : Level) : Except UsageError Level :=
  match l.pending with
  | some (flag, none) => .ok { l with pending := some (flag, some cs) }
  | _ => .error .invalid

end Level

/-- Splits the text behind two hyphens at its first equals sign. -/
def splitFlag (cs : List Char) : List Char × Option (List Char) :=
  match cs.dropWhile (· != '=') with
  | '=' :: value => (cs.takeWhile (· != '='), some value)
  | _ => (cs, none)

/-- Help on a subcommand can be asked for, and help on help. -/
def helpOn : List (List Char) → UsageError
  | [] => .help none
  | [name] =>
    if String.ofList name ∈ "help" :: commandNames then .help (some (String.ofList name)) else .invalid
  | _ => .invalid

/-- Reads the arguments of the level of a subcommand, or those of the program's own level up to a
subcommand. -/
def scan (flags : List Flag) (command : Option String) :
    Level → List (List Char) → Except UsageError (Level × Option (String × List (List Char)))
  | l, [] => .ok (l, none)
  | l, arg :: rest =>
    if command = none ∧ !l.waits ∧ String.ofList arg ∈ commandNames then
      .ok (l, some (String.ofList arg, rest))
    else if command = none ∧ !l.waits ∧ arg = "help".toList then .error (helpOn rest)
    else
      let next : Except UsageError (Option Level) :=
        match arg with
        | ['-', '-'] => if rest.isEmpty then .ok none else .error .invalid
        | '-' :: '-' :: cs =>
          let (name, attached) := splitFlag cs
          (l.flag flags command name attached).map some
        | '-' :: c :: _ => (l.letter command c).map some
        | cs => (l.plain cs).map some
      match next with
      | .error e => .error e
      | .ok none => .ok (l, none)
      | .ok (some l) => scan flags command l rest

/-! ## All levels -/

/-- The value of a flag as a number. -/
def numberOf (values : List (String × List Char)) (name : String) : Option UInt64 :=
  (values.lookup name).bind number?

/-- The value of a flag as a path. -/
def pathOf (values : List (String × List Char)) (name : String) : Option Path :=
  (values.lookup name).map fun cs => .ofText (String.ofList cs)

/-- The shared flags; those behind the subcommand come first. -/
def globalsOf (values : List (String × List Char)) : Globals := {
  config := pathOf values "config"
  seed := numberOf values "seed"
  outDir := pathOf values "out-dir"
  logFile := pathOf values "log-file"
  report := pathOf values "report" }

/-- The subcommand with its flags. -/
def commandOf (name : String) (values : List (String × List Char)) : Command :=
  if name = "json" then
    .nested (numberOf values "max-depth") (numberOf values "num-keys") (pathOf values "out")
  else if name = "json-array" then .array (numberOf values "count") (pathOf values "out")
  else if name = "ndjson" then .ndjson (numberOf values "count") (pathOf values "out")
  else if name = "csv" then .csv (numberOf values "rows") (pathOf values "out")
  else .all

/-- Reads arguments, without the name of the program. What stands behind the subcommand is read, and
refused, before the last flag in front of it. -/
def read (args : List String) : Except UsageError Arguments :=
  match scan globalFlags none .empty (args.map String.toList) with
  | .error e => .error e
  | .ok (_, none) => .error .invalid
  | .ok (top, some (name, rest)) => do
    let (below, _) ← scan (ownFlags name ++ globalFlags) (some name) .empty rest
    let below ← below.settle
    let top ← top.settle
    return ⟨globalsOf (below.values ++ top.values), commandOf name below.values⟩

end Arguments

namespace Command

/-- The kind that a subcommand is about; none for all kinds. -/
def kind? : Command → Option Kind
  | nested _ _ _ => some .nested
  | array _ _ => some .array
  | ndjson _ _ => some .ndjson
  | csv _ _ => some .csv
  | all => none

/-- The kinds that a subcommand is about. -/
def kinds (c : Command) : List Kind :=
  match c.kind? with
  | some k => [k]
  | none => Kind.all

/-- The name of a subcommand. -/
def name (c : Command) : String :=
  match c.kind? with
  | some k => k.id
  | none => "all"

/-- The options with the flags of a subcommand in the place of what they said before. -/
def apply (c : Command) (o : Options) : Options :=
  match c with
  | nested maxDepth keys out =>
    { o with nested := { o.nested with
        maxDepth := maxDepth.getD o.nested.maxDepth
        keys := keys.getD o.nested.keys
        out := out.or o.nested.out } }
  | array count out =>
    { o with array := ⟨count.getD o.array.count, out.or o.array.out⟩ }
  | ndjson count out =>
    { o with ndjson := ⟨count.getD o.ndjson.count, out.or o.ndjson.out⟩ }
  | csv rows out =>
    { o with csv := { o.csv with rows := rows.getD o.csv.rows, out := out.or o.csv.out } }
  | all => o

end Command

/-- The options with the shared flags in the place of what they said before. -/
def Globals.apply (g : Globals) (o : Options) : Options :=
  { o with seed := g.seed.or o.seed, outDir := g.outDir.getD o.outDir }

end Fixtures
