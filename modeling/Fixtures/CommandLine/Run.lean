/-
A whole run from the command line: the log is opened, the settings read, the fixtures written, and
the reports told, printed and filed.
-/
import Fixtures.CommandLine.Arguments
import Fixtures.CommandLine.Help
import Fixtures.FileSystem.Whole
import Fixtures.Output.Json
import Fixtures.Run.Basic
import Fixtures.Settings

namespace Fixtures

/-- The reasons for which a run from the command line fails. -/
inductive CommandError where
  | settings (e : SettingsError)
  | run (e : RunError)
  | file (e : FileError)
  /-- The path of a report is no text. -/
  | json
  /-- The setting that says which events are told cannot be cut into its rules. -/
  | filter
  deriving DecidableEq

namespace RunError

def message : RunError → String
  | options e => e.message
  | draw _ => "a draw is impossible"
  | write e => e.message

end RunError

namespace CommandError

def message : CommandError → String
  | settings e => "settings error: " ++ e.message
  | run e => "generation error: " ++ e.message
  | file e => "io error: " ++ e.message
  | json => "json error: path contains invalid UTF-8 characters"
  | filter => "a rule of the filter is cut within a character"

end CommandError

/-- How a run from the command line ends. -/
inductive Ending where
  | done
  | failed (e : CommandError)
  | refused (e : UsageError)
  deriving DecidableEq

/-- What a run from the command line leaves: the lines that it prints, and how it ends. -/
structure Outcome where
  lines : List String
  ending : Ending
  deriving DecidableEq

namespace CommandLine

/-! ## Steps -/

/-- Opens the log at a path, if one is named. -/
def openLog (named : Option Path) (filter : Filter) (s : Session) : Except FileError Session :=
  match named with
  | none => .ok { s with journal := ⟨filter, none⟩ }
  | some p =>
    match s.files.openFile false p with
    | .ok (l, files) => .ok { s with files := files, journal := ⟨filter, some l⟩ }
    | .error e => .error e

/-- Runs the kind that a subcommand is about, or all. -/
def generate (c : Command) (o : Options) (s : Session) : Except RunError (List Report) × Session :=
  match c.kind? with
  | none => Run.all o s
  | some k =>
    match Run.one o k s with
    | (.ok report, s) => (.ok [report], s)
    | (.error e, s) => (.error e, s)

/-- The layout of the report file. -/
def reportLayout : Json.Layout := .indented 2

/-- The text of the report file, if all its paths are texts. -/
def reportText? (reports : List Report) : Option (List Char) :=
  (reports.mapM Report.toJson?).map fun documents => (Json.array documents).text reportLayout

/-- The log after a file was written as a whole: it follows its file, which may have been the one
that was prepared, and is lost with it if another file took its place. -/
def follow (p : Path) (before : FileSystem) (j : Journal) : Journal :=
  let locate (q : Path) : Option Location :=
    match before.walk q with
    | .ok place => place.last.map fun name => place.dir ++ [name]
    | .error _ => none
  match j.location with
  | none => j
  | some l =>
    if (FileSystem.temporary? p).bind locate = some l then { j with location := locate p }
    else if locate p = some l then { j with location := none }
    else j

/-- Files the reports at a path, if one is named. -/
def fileReports (named : Option Path) (reports : List Report) (s : Session) :
    Except CommandError Unit × Session :=
  match named with
  | none => (.ok (), s)
  | some p =>
    match reportText? reports with
    | none => (.error .json, s)
    | some text =>
      match s.files.writeWhole p (encodeText text) with
      | (.error e, files) => (.error (.file e), { s with files := files })
      | (.ok _, files) =>
        let s := { s with files := files, journal := follow p files s.journal }
        (.ok (), s.tell (.reportWritten p))

/-! ## Runs -/

/-- A run with some arguments, once the log is open and the options are known. -/
def runWith (a : Arguments) (o : Options) (s : Session) : Outcome × Session :=
  match generate a.command o (s.tell (.runStarted a.command.name)) with
  | (.error e, s) => (⟨[], .failed (.run e)⟩, s)
  | (.ok reports, s) =>
    let lines := reports.map Report.line
    match fileReports a.globals.report reports s with
    | (.error e, s) => (⟨lines, .failed e⟩, s)
    | (.ok _, s) => (⟨lines, .done⟩, s.tell (.runFinished reports.length))

/-- A run from the command line; the setting, if there is one, says which events the log takes. -/
def run (args : List String) (setting : Option String) (s : Session) : Outcome × Session :=
  match Arguments.read args with
  | .error (.help topic) => (⟨helpLines topic, .refused (.help topic)⟩, s)
  | .error .version => (⟨[version], .refused .version⟩, s)
  | .error .invalid => (⟨[], .refused .invalid⟩, s)
  | .ok a =>
    match Filter.ofSetting? setting with
    | none => (⟨[], .failed .filter⟩, s)
    | some filter =>
      match openLog a.globals.logFile filter s with
      | .error e => (⟨[], .failed (.file e)⟩, s)
      | .ok s =>
        match Settings.load a.globals.config s.files with
        | .error e => (⟨[], .failed (.settings e)⟩, s)
        | .ok o => runWith a (a.command.apply (a.globals.apply o)) s

end CommandLine

namespace Outcome

/-- What is said about a run that did not do what it was asked to do. -/
def complaint? (o : Outcome) : Option String :=
  match o.ending with
  | .done | .refused (.help _) | .refused .version => none
  | .refused .invalid => some "error: invalid arguments\n\nFor more information, try '--help'."
  | .failed e => some ("Error: " ++ e.message)

/-- The exit status: 2 for arguments that are refused, 101 for a draw that is impossible and for a
filter that cannot be cut. -/
def status (o : Outcome) : Nat :=
  match o.ending with
  | .done | .refused (.help _) | .refused .version => 0
  | .refused .invalid => 2
  | .failed (.run (.draw _)) | .failed .filter => 101
  | .failed _ => 1

end Outcome

end Fixtures
