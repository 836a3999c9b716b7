/-
What a run tells while it goes on, and the lines in which it is told.
-/
import Fixtures.Calendar.Text
import Fixtures.Json.Printer
import Fixtures.Options

namespace Fixtures

/-- How important an event is. -/
inductive Level where
  | error
  | warn
  | info
  | debug
  | trace
  deriving DecidableEq, Repr

namespace Level

def name : Level → String
  | error => "ERROR"
  | warn => "WARN"
  | info => "INFO"
  | debug => "DEBUG"
  | trace => "TRACE"

/-- The rank of a level; less important ones have a higher rank. -/
def rank : Level → Nat
  | error => 1
  | warn => 2
  | info => 3
  | debug => 4
  | trace => 5

end Level

/-- An event of a run. -/
inductive Event where
  | runStarted (command : String)
  | generationStarted (seed : UInt64) (fixtures : Nat)
  | generating (kind : Kind) (seed : UInt64) (path : Path)
  | nestedResolved (options : NestedOptions)
  | building (generator : String) (count : UInt64)
  | written (kind : Kind) (records bytes duration : UInt64)
  | reportWritten (path : Path)
  | runFinished (fixtures : Nat)

namespace Event

def level : Event → Level
  | nestedResolved _ => .debug
  | building _ _ => .debug
  | _ => .info

/-- The part of the program that tells the event. -/
def target : Event → String
  | runStarted _ => "fixturegen"
  | reportWritten _ => "fixturegen"
  | runFinished _ => "fixturegen"
  | _ => "fixturegen_generate::engine"

/-- Shapes are told with numbers written positionally from 0.0001 up to but not including 10 to the
power 16. -/
def floatStyle : FloatStyle := ⟨-4, 15, false⟩

/-- The text of a shape. -/
def shapeText (s : Shape) : String :=
  let fields : List (String × List Char) := [
    ("int_min", intDigits s.intMin.toInt),
    ("int_max", intDigits s.intMax.toInt),
    ("float_min", s.floatMin.text floatStyle),
    ("float_max", s.floatMax.text floatStyle),
    ("float_scale", natDigits s.floatScale.toNat),
    ("string_len", natDigits s.textLength.toNat),
    ("min_children", natDigits s.minChildren.toNat),
    ("max_children", natDigits s.maxChildren.toNat)]
  "NestedShape \x7b " ++
    ", ".intercalate (fields.map fun (name, value) => name ++ ": " ++ String.ofList value) ++ " \x7d"

/-- What the event is about. -/
def fields : Event → List (String × Json)
  | runStarted command => [("event", .string "run_started"), ("command", .string command)]
  | generationStarted seed fixtures =>
    [("message", .string "generation started"), ("seed", .ofInt seed.toNat), ("fixtures", .ofInt fixtures)]
  | generating kind seed path =>
    [("message", .string "generating fixture"), ("kind", .string kind.id), ("seed", .ofInt seed.toNat),
      ("path", .string path.display)]
  | nestedResolved options =>
    [("message", .string "nested options resolved"), ("max_depth", .ofInt options.maxDepth.toNat),
      ("num_keys", .ofInt options.keys.toNat), ("shape", .string (shapeText options.shape))]
  | building generator count =>
    [("message", .string "building records"), ("generator", .string generator),
      ("count", .ofInt count.toNat)]
  | written kind records bytes duration =>
    [("message", .string "fixture written"), ("kind", .string kind.id), ("records", .ofInt records.toNat),
      ("bytes_written", .ofInt bytes.toNat), ("duration_ms", .ofInt duration.toNat)]
  | reportWritten path => [("event", .string "report_written"), ("path", .string path.display)]
  | runFinished fixtures => [("event", .string "run_finished"), ("fixtures", .ofInt fixtures)]

/-- The document of an event that happens at an instant. -/
def toJson (e : Event) (now : DateTime) : Json := .object [
  ("timestamp", .string (String.ofList (now.text ++ ['Z']))),
  ("level", .string e.level.name),
  ("fields", .object e.fields),
  ("target", .string e.target)]

/-- The line of an event. -/
def line (e : Event) (now : DateTime) : List Char := (e.toJson now).text .compact ++ ['\n']

end Event

end Fixtures
