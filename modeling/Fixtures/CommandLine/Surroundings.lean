/-
Which part of the file system a run from the command line depends on: the files that its arguments
and settings name, and the directories on the way to them.
-/
import Fixtures.CommandLine.Run

namespace Fixtures

namespace Path

/-- The locations that a walk along a path passes, from a directory on. -/
def passed (dir : Location) : List FileName → List Location
  | [] => [dir]
  | segment :: rest =>
    if segment = [] ∨ segment = .here then passed dir rest
    else if segment = .up then dir :: passed dir.dropLast rest
    else dir :: passed (dir ++ [segment]) rest

/-- The locations that a walk along a path passes if it starts in a working directory. -/
def locations (workDir : Location) (p : Path) : List Location :=
  passed (if p.isAbsolute then [] else workDir) (split p.bytes)

/-- The location that an absolute path names. -/
def location (p : Path) : Location := ((p.locations []).getLast?).getD []

/-- The absolute path to a location. -/
def ofLocation (l : Location) : Path := ⟨separator :: [separator].intercalate l⟩

end Path

namespace CommandLine

/-- The arguments of a run and the options that they give with the settings in a file system, if both
can be read. -/
def plan? (args : List String) (fs : FileSystem) : Option (Arguments × Options) :=
  match Arguments.read args with
  | .error _ => none
  | .ok a =>
    match Settings.load a.globals.config fs with
    | .error _ => none
    | .ok o => some (a, a.command.apply (a.globals.apply o))

/-- The files that the arguments alone name. -/
def namedPaths (g : Globals) : List Path :=
  g.config.getD Settings.standardFile ::
    (g.logFile.toList ++ g.report.toList ++ (g.report.bind FileSystem.temporary?).toList)

/-- The files that a run reads or writes, as far as the settings in a file system tell. -/
def paths (args : List String) (fs : FileSystem) : List Path :=
  match Arguments.read args, plan? args fs with
  | .error _, _ => []
  | .ok a, none => namedPaths a.globals
  | .ok a, some (_, o) => namedPaths a.globals ++ a.command.kinds.map o.outputPath

/-- The locations that a run depends on, as far as the settings in a file system tell. -/
def locations (args : List String) (fs : FileSystem) : List Location :=
  ((paths args fs).flatMap (Path.locations fs.workDir)).eraseDups

end CommandLine

end Fixtures
