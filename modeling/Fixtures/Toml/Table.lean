/-
Tables under construction. A table may come up by a header of its own, by the header of a table
below it, or by a dotted key, and this decides how it may be extended: no table is opened twice, and
none is extended both by headers and by dotted keys.
-/
import Fixtures.Toml.Basic

namespace Fixtures.Toml

/-- How a table came up. -/
inductive Origin where
  /-- By its own header or braces. -/
  | stated
  /-- By the header of a table below it. -/
  | implied
  /-- By a dotted key. -/
  | dotted
  deriving DecidableEq

/-- What stands under a key while tables are built. -/
inductive Node where
  | leaf (v : Toml)
  | table (origin : Origin) (entries : List (String × Node))
  /-- An array of tables: those that are complete, newest first, and the last one. -/
  | tables (complete : List (List (String × Node))) (last : List (String × Node))

abbrev Entries := List (String × Node)

namespace Entries

/-- Changes what stands under a key, or puts something there. -/
def alter (key : String) (change : Option Node → Option Node) : Entries → Option Entries
  | [] => (change none).map fun node => [(key, node)]
  | (k, node) :: rest =>
    if k = key then (change (some node)).map fun node => (k, node) :: rest
    else (alter key change rest).map ((k, node) :: ·)

/-- Changes the table that a path leads to. Tables that are missing come up on the way, and of an
array of tables the last one counts. A dotted path does not enter tables that have a header. -/
def within (byKey : Bool) (change : Origin → Entries → Option Entries) :
    (path : List String) → Origin → Entries → Option Entries
  | [], origin, entries => change origin entries
  | key :: path, _, entries => alter key (fun
    | none =>
      let origin := if byKey then .dotted else .implied
      (within byKey change path origin []).map (.table origin)
    | some (.leaf _) => none
    | some (.table origin below) =>
      if byKey && origin == .stated then none
      else (within byKey change path origin below).map (.table origin)
    | some (.tables complete last) =>
      (within byKey change path .stated last).map (.tables complete)) entries

/-- Opens the table of a header. It may have come up by headers below it, but in no other way. -/
def openTable (path : List String) (root : Entries) : Option Entries :=
  match path.getLast? with
  | none => none
  | some key =>
    within false (fun _ => alter key fun
      | none => some (.table .stated [])
      | some (.table .implied below) => some (.table .stated below)
      | _ => none) path.dropLast .stated root

/-- Opens one more table of an array of tables. -/
def openNext (path : List String) (root : Entries) : Option Entries :=
  match path.getLast? with
  | none => none
  | some key =>
    within false (fun _ => alter key fun
      | none => some (.tables [] [])
      | some (.tables complete last) => some (.tables (last :: complete) [])
      | _ => none) path.dropLast .stated root

/-- Puts a value under a key, which may be dotted. The table that takes it has come up by a dotted
key exactly if the key is dotted, and the key is new. -/
def put (path : List String) (v : Toml) (origin : Origin) (entries : Entries) : Option Entries :=
  match path.getLast? with
  | none => none
  | some key =>
    within true (fun origin entries =>
      if (origin == .dotted) == path.dropLast.isEmpty then none
      else alter key (fun
        | none => some (.leaf v)
        | some _ => none) entries) path.dropLast origin entries

/-- Puts a value under a key below the table of a header. -/
def putBelow (header path : List String) (v : Toml) (root : Entries) : Option Entries :=
  within false (put path v) header .stated root

end Entries

/-! ## Complete tables -/

mutual

/-- The value of a complete node. -/
def Node.close : Node → Toml
  | .leaf v => v
  | .table _ entries => .table (closeEntries entries)
  | .tables complete last => .array (closeTables [.table (closeEntries last)] complete)

/-- Closes the tables of an array, newest first, in front of those there are. -/
def closeTables (acc : List Toml) : List (List (String × Node)) → List Toml
  | [] => acc
  | entries :: rest => closeTables (.table (closeEntries entries) :: acc) rest

def closeEntries : List (String × Node) → List (String × Toml)
  | [] => []
  | (key, node) :: rest => (key, node.close) :: closeEntries rest

end

end Fixtures.Toml
