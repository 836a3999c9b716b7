/-
Filters of events: which levels are told, of all events or of those of some part of the program or
with some field.
-/
import Fixtures.Journal.Event
import Fixtures.Journal.FieldValue
import Fixtures.Text.Blank

namespace Fixtures

/-- A rule of a filter: the highest rank that is told (0 for nothing), of the events whose target
starts with a text and that have a field, where these are given. -/
structure Directive where
  target : Option String
  field : Option String
  rank : Nat
  deriving DecidableEq, Repr

namespace Directive

/-- Whether a rule is about an event. -/
def appliesTo (d : Directive) (e : Event) : Bool :=
  (d.target.all fun start => e.target.startsWith start) &&
    (d.field.all fun name => e.fields.any fun field => field.1 == name)

/-- How specific the target of a rule is. -/
def weight (d : Directive) : Nat :=
  match d.target with
  | none => 0
  | some start => start.utf8ByteSize + 1

/-- Whether a rule with the field `b` yields to an equally weighty one with the field `d`: a field is
more specific than none, and of two the later name goes first. -/
def yields : Option String → Option String → Bool
  | none, _ => true
  | some _, none => false
  | some b, some d => !(d < b)

/-- Of two rules about one event the one that decides; of equal ones the second. -/
def prefer (b d : Directive) : Directive :=
  if b.weight < d.weight then d
  else if d.weight < b.weight then b
  else if yields b.field d.field then d
  else b

end Directive

/-- The rules of a filter, in order. -/
abbrev Filter := List Directive

namespace Filter

/-! ## Deciding -/

/-- The rule that decides about an event. -/
def ruleFor? (f : Filter) (e : Event) : Option Directive :=
  match f.filter fun d => d.appliesTo e with
  | [] => none
  | first :: others => some (others.foldl Directive.prefer first)

/-- Whether an event is told. An event about which there is no rule is not. -/
def tells (f : Filter) (e : Event) : Bool :=
  match f.ruleFor? e with
  | none => false
  | some d => e.level.rank ≤ d.rank

/-! ## Levels -/

/-- The filter that tells what is of some importance. -/
def standard : Filter := [⟨none, none, Level.info.rank⟩]

/-- The rank that a word or a number names. -/
def rank? (word : List Char) : Option Nat :=
  let names := ["off", "error", "warn", "info", "debug", "trace"]
  let digits := match word with
    | '+' :: rest => rest
    | word => word
  if !digits.isEmpty && digits.all Char.isDigit then
    if digitsValue digits ≤ Level.trace.rank then some (digitsValue digits) else none
  else
    let lower := String.ofList (word.map Char.toLower)
    names.findIdx? (· == lower)

/-! ## Cutting -/

/-- The reasons for which a rule cannot be read. -/
inductive Fault where
  /-- The text is no rule. -/
  | misread
  /-- A cut falls within a character. -/
  | torn
  deriving DecidableEq, Repr

/-- The number of bytes of a text. -/
def byteCount : List Char → Nat
  | [] => 0
  | c :: rest => c.utf8Size + byteCount rest

/-- The two parts of a text that is cut behind some bytes. -/
def cut : (bytes : Nat) → List Char → Except Fault (List Char × List Char)
  | 0, cs => .ok ([], cs)
  | _ + 1, [] => .error .torn
  | n + 1, c :: rest =>
    if n + 1 < c.utf8Size then .error .torn
    else (cut (n + 1 - c.utf8Size) rest).map fun (left, right) => (c :: left, right)

/-- The part of a text between two numbers of bytes. -/
def slice (cs : List Char) (first last : Nat) : Except Fault (List Char) := do
  let (_, right) ← cut first cs
  let (middle, _) ← cut (last - first) right
  return middle

/-! ## Rules

The marks of a rule are found in the text without the white space at its ends, but its parts are cut
from the whole text by the number of bytes in front of a mark. White space in front thus shifts them.
-/

/-- A character that a rule may start with. -/
def isFirst (c : Char) : Bool := isAlphanumeric c || c == '_' || c == ':' || c == '-'

/-- A character of a target. -/
def isTarget (c : Char) : Bool := c != '=' && c != '['

/-- A character of the name of a stretch of the program. -/
def isStretch (c : Char) : Bool := c != ']' && c != '\x7b'

/-- The rank that the text from a place on names; without a text it is the highest. -/
def rankFrom (piece : List Char) (place : Nat) : Except Fault Nat := do
  let (_, word) ← cut place piece
  if word.isEmpty then return Level.trace.rank
  else match rank? word with
    | some rank => return rank
    | none => throw .misread

/-- The rank of a rule that has been read up to a place: the rest is empty, or an equals sign and the
rank. -/
def rankBehind (piece : List Char) (place : Nat) : List Char → Except Fault Nat
  | [] => return Level.trace.rank
  | '=' :: _ => rankFrom piece (place + 1)
  | _ => throw .misread

/-- The name of a field, and whether a value follows it. -/
def field (text : List Char) : Except Fault (String × Bool) :=
  let name := String.ofList (text.takeWhile (· != '='))
  match text.dropWhile (· != '=') with
  | [] => if text.isEmpty then throw .misread else return (name, false)
  | _ :: value =>
    if FieldValue.isValue (value.takeWhile (· != '=')) then return (name, true) else throw .misread

/-- A rule about a stretch of the program or about a field, whose opening bracket lies in front of a
place. No event lies in such a stretch, and no value of a field is looked at outside of one: such a
rule is understood, but decides about nothing. -/
def bracketed (piece : List Char) (target : Option String) (place : Nat) (rest : List Char) :
    Except Fault (Option Directive) := do
  let stretch := rest.takeWhile isStretch
  let stop := place + byteCount stretch
  match rest.dropWhile isStretch with
  | [] => throw .misread
  | ']' :: rest =>
    let _ ← slice piece place stop
    let _ ← rankBehind piece (stop + 1) rest
    return none
  | _ :: rest =>
    let inner := rest.takeWhile (· != '\x7d')
    let close := stop + 1 + byteCount inner
    let _ ← slice piece place stop
    match rest.dropWhile (· != '\x7d') with
    | [] => throw .misread
    | _ :: rest =>
      let (name, hasValue) ← field (← slice piece (stop + 1) close)
      match rest with
      | ']' :: rest =>
        let rank ← rankBehind piece (close + 2) rest
        return if stretch.isEmpty && !hasValue then some ⟨target, some name, rank⟩ else none
      | _ => throw .misread

/-- Reads a rule: a level, a target and perhaps a level, or one with brackets. -/
def directive (piece : List Char) : Except Fault (Option Directive) := do
  let text := trim piece
  match text with
  | [] => throw .misread
  | '[' :: rest => bracketed piece none 1 rest
  | first :: _ =>
    if !isFirst first then throw .misread
    let stop := byteCount (text.takeWhile isTarget)
    match text.dropWhile isTarget with
    | [] =>
      match rank? piece with
      | some rank => return some ⟨none, none, rank⟩
      | none => return some ⟨some (String.ofList piece), none, Level.trace.rank⟩
    | mark :: rest =>
      let target := String.ofList (← slice piece 0 stop)
      if mark = '=' then return some ⟨some target, none, ← rankFrom piece (stop + 1)⟩
      else bracketed piece (some target) (stop + 1) rest

/-! ## Filters -/

/-- Splits a text at commas. -/
def pieces : List Char → List (List Char)
  | [] => [[]]
  | c :: rest =>
    if c = ',' then [] :: pieces rest
    else match pieces rest with
      | [] => [[c]]
      | first :: others => (c :: first) :: others

/-- Reads a filter. One with a rule that is not understood is the standard one; there is none if a
rule cannot be cut. -/
def read? (cs : List Char) : Option Filter :=
  match ((pieces cs).filter (· ≠ [])).mapM directive with
  | .ok directives => some (directives.filterMap id)
  | .error .misread => some standard
  | .error .torn => none

/-- The filter that a setting asks for, the standard one without a setting. -/
def ofSetting? : Option String → Option Filter
  | none => some standard
  | some text => read? text.toList

end Filter

end Fixtures
