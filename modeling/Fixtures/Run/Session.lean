/-
What a run works on: the files, the time, and the log to which it adds its events.
-/
import Fixtures.Output.File
import Fixtures.Journal.Filter

namespace Fixtures

/-- The log of a run: which events it takes, and the file to which they are added, if there is one. -/
structure Journal where
  filter : Filter := Filter.standard
  location : Option Location := none
  deriving Inhabited

/-- The surroundings of a run, from which it takes all that its options leave open. -/
structure Session where
  files : FileSystem
  /-- The time of the run. -/
  now : DateTime
  /-- The seed of a run whose options have none. -/
  freshSeed : UInt64
  /-- The milliseconds that it takes to write the fixtures. -/
  durations : Kind → UInt64
  journal : Journal := {}

namespace Session

/-- Adds an event to the log, if there is one that takes it. What cannot be written of an event is
lost. -/
def tell (s : Session) (e : Event) : Session :=
  match s.journal.location with
  | none => s
  | some l =>
    if s.journal.filter.tells e then
      let (_, f) := Sink.writeAll (OpenFile.mk s.files l) (String.ofList (e.line s.now)).toUTF8
      { s with files := f.files }
    else s

end Session

end Fixtures
