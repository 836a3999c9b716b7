/-
The check that a run with some options is possible.
-/
import Fixtures.Options
import Fixtures.Record.Ledger

namespace Fixtures

/-- The reasons for which options are refused. -/
inductive OptionsError where
  | noDepth
  | shape (e : ShapeError)
  | emptySpan
  /-- The window of the ledger rows reaches beyond the calendar. -/
  | unreachableSpan
  deriving DecidableEq, Repr

namespace OptionsError

/-- What is wrong, in the terms of the settings. -/
def detail : OptionsError → String
  | noDepth => "nested.max_depth must be >= 1"
  | shape e => e.detail
  | emptySpan => "csv.span_days must be > 0"
  | unreachableSpan => "csv.span_days reaches before the earliest representable date"

def message : OptionsError → String
  | shape e => "core error: " ++ e.message
  | e => "invalid options: " ++ e.detail

end OptionsError

namespace CsvOptions

/-- The window of the ledger rows, which ends now if the options do not say when. -/
def window? (o : CsvOptions) (now : DateTime) : Option LedgerWindow :=
  LedgerWindow.ofSpan? (o.stop.getD now) o.spanDays

end CsvOptions

namespace Options

/-- The first thing that is wrong with the options, if there is one. -/
def error? (o : Options) (now : DateTime) : Option OptionsError :=
  if o.nested.maxDepth = 0 then some .noDepth
  else match o.nested.shape.error? with
    | some e => some (.shape e)
    | none =>
      if o.csv.spanDays ≤ 0 then some .emptySpan
      else match o.csv.window? now with
        | none => some .unreachableSpan
        | some _ => none

end Options

end Fixtures
