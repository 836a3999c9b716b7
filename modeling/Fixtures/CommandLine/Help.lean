/-
The texts that explain the command line and its subcommands.
-/
import Fixtures.CommandLine.Grammar

namespace Fixtures.CommandLine

/-- The name and version of the program. -/
def version : String := "fixturegen 0.1.0"

/-- Lines in two columns, of which the second starts at one place in all lines. -/
def columns (rows : List (String × String)) : List String :=
  let width := rows.foldl (fun w row => max w row.1.length) 0
  rows.map fun (head, about) =>
    "  " ++ head ++ String.ofList (List.replicate (width - head.length + 2) ' ') ++ about

/-- The first column of a flag that has no letter. -/
def Flag.head (f : Flag) : String := "    --" ++ f.name ++ " <" ++ f.value ++ ">"

/-- The flags of a subcommand among the shared ones, place by place and by name in one place. -/
def interleave : (own shared : List Flag) → List Flag
  | [], shared => shared
  | own, [] => own
  | f :: own, g :: shared =>
    if f.name < g.name then f :: g :: interleave own shared else g :: f :: interleave own shared

/-- The lines about flags; the program itself has one for its version. -/
def optionLines (flags : List Flag) (hasVersion : Bool) : List String :=
  "Options:" :: columns (flags.map (fun f => (f.head, f.about)) ++ [("-h, --help", "Print help")] ++
    if hasVersion then [("-V, --version", "Print version")] else [])

/-- The help on the program. -/
def programHelp : List String :=
  ["Synthetic test-fixture generator", "", "Usage: fixturegen [OPTIONS] <COMMAND>", "", "Commands:"] ++
    columns (commands ++ [("help", helpAbout)]) ++ [""] ++ optionLines globalFlags true

/-- The help on a subcommand. -/
def commandHelp (name : String) : List String :=
  if name = "help" then
    [helpAbout, "", "Usage: fixturegen help [COMMAND]...", "", "Arguments:"] ++
      columns [("[COMMAND]...", "Print help for the subcommand(s)")]
  else
    [(commands.lookup name).getD "", "", "Usage: fixturegen " ++ name ++ " [OPTIONS]", ""] ++
      optionLines (interleave (ownFlags name) globalFlags) false

/-- The help on a subcommand, or on the program. -/
def helpLines (topic : Option String) : List String :=
  match topic with
  | none => programHelp
  | some name => commandHelp name

end Fixtures.CommandLine
