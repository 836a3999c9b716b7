/-
Records of CSV and the tokens of their text. A field stands in quotes exactly if it holds a comma, a
quote or an end of line, and then its quotes are doubled. A record without any character is a pair of
quotes.
-/
import Fixtures.Output.Error

namespace Fixtures.Csv

/-- The fields of a record; `complete` is false if something came behind them that is no field. -/
structure Record where
  fields : List (List Char)
  complete : Bool := true
  deriving DecidableEq, Inhabited

/-- A piece of the text: a mark is written in one, a text may be broken. -/
inductive Token where
  | mark (cs : List Char)
  | text (cs : List Char)
  deriving DecidableEq

namespace Token

def chars : Token → List Char
  | mark cs => cs
  | text cs => cs

end Token

/-! ## Fields -/

/-- A character for which a field is quoted. -/
def isSpecial (c : Char) : Bool := c == ',' || c == '"' || c == '\r' || c == '\n'

def isQuoted (field : List Char) : Bool := field.any isSpecial

/-- The tokens of a quoted field behind its opening quote; a run of characters before is given newest
first. -/
def quotedTokens (run : List Char) : List Char → List Token
  | [] => [.text run.reverse]
  | c :: rest =>
    if c = '"' then .text run.reverse :: .mark ['"', '"'] :: quotedTokens [] rest
    else quotedTokens (c :: run) rest

/-- The tokens of a field, without a closing quote. -/
def openTokens (field : List Char) : List Token :=
  if isQuoted field then .mark ['"'] :: quotedTokens [] field else [.text field]

/-- The closing quote of a field, if it has one. -/
def closeTokens (field : List Char) : List Token := if isQuoted field then [.mark ['"']] else []

/-! ## Records -/

/-- The tokens of some fields, up to but without the closing quote of the last. -/
def fieldTokens : List (List Char) → List Token
  | [] => []
  | [field] => openTokens field
  | field :: rest => openTokens field ++ closeTokens field ++ .mark [','] :: fieldTokens rest

/-- The tokens that end a record. -/
def endTokens (fields : List (List Char)) : List Token :=
  (match fields.getLast? with
    | some field => closeTokens field
    | none => []) ++
  (if fields = [] ∨ fields = [[]] then [.mark ['"', '"']] else []) ++ [.mark ['\r', '\n']]

/-- The tokens of records with a number of columns, up to the first that is refused. -/
def recordTokens (columns : Nat) : List Record → List Token × Option CsvError
  | [] => ([], none)
  | r :: rest =>
    if !r.complete then (fieldTokens r.fields, some .mapping)
    else if r.fields.length ≠ columns then
      (fieldTokens r.fields, some (.unequalLengths r.fields.length columns))
    else
      let (tokens, error) := recordTokens columns rest
      (fieldTokens r.fields ++ endTokens r.fields ++ tokens, error)

/-- The tokens of a header and records below it. -/
def tokens (header : List (List Char)) (records : List Record) : List Token × Option CsvError :=
  recordTokens header.length (⟨header, true⟩ :: records)

end Fixtures.Csv
