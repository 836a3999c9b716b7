/-
The reader of TOML documents: lines that open tables and lines that put values under keys.
-/
import Fixtures.Toml.Scalar
import Fixtures.Toml.Table

namespace Fixtures.Toml

/-! ## Blanks and comments -/

/-- A text without a comment at its start; the comment ends before the first character that cannot
stand in it. -/
def skipComment : List Char → List Char
  | '#' :: rest => rest.dropWhile isPlain
  | cs => cs

/-- The rest behind the end of a line, which may have blanks and a comment before it. -/
def readLineEnd? (cs : List Char) : Option (List Char) :=
  match skipComment (skipSpace cs) with
  | [] => some []
  | cs => lineBreak? cs

/-- Passes over blanks, comments and ends of lines. A comment has to end with its line. -/
def skipLines : (fuel : Nat) → List Char → List Char
  | 0, cs => cs
  | fuel + 1, cs =>
    match skipSpace cs with
    | '#' :: rest =>
      match lineBreak? (rest.dropWhile isPlain) with
      | some behind => skipLines fuel behind
      | none => '#' :: rest
    | cs =>
      match lineBreak? cs with
      | some behind => skipLines fuel behind
      | none => cs

/-- The same with enough steps for the text. -/
def skipAllLines (cs : List Char) : List Char := skipLines (cs.length + 1) cs

/-! ## Keys -/

/-- A character of a key without quotes. -/
def isBare (c : Char) : Bool := c.isAlphanum || c == '-' || c == '_'

/-- A key without dots. -/
def readSimpleKey? (cs : List Char) : Option (String × List Char) :=
  match cs with
  | '"' :: rest => (readBasic? [] rest).map fun (s, rest) => (String.ofList s, rest)
  | '\'' :: rest => (readLiteral? [] rest).map fun (s, rest) => (String.ofList s, rest)
  | cs =>
    let bare := cs.takeWhile isBare
    if bare.isEmpty then none else some (String.ofList bare, cs.dropWhile isBare)

/-- Simple keys with dots between them, and blanks around each. -/
def readKeyParts? : (fuel : Nat) → List Char → Option (List String × List Char)
  | 0, _ => none
  | fuel + 1, cs => do
    let (part, cs) ← readSimpleKey? (skipSpace cs)
    match skipSpace cs with
    | '.' :: rest =>
      let (parts, cs) ← readKeyParts? fuel rest
      pure (part :: parts, cs)
    | cs => pure ([part], cs)

/-- A limit that nesting and dotted keys stay below. -/
def depthLimit : Nat := 80

/-- A key of fewer parts than the limit. -/
def readKey? (cs : List Char) : Option (List String × List Char) :=
  match readKeyParts? (cs.length + 1) cs with
  | some (parts, rest) => if parts.length < depthLimit then some (parts, rest) else none
  | none => none

/-! ## Values -/

/-- A reader of values. -/
abbrev ValueReader := List Char → Option (Toml × List Char)

/-- The items of an array up to its bracket; a comma may follow the last. -/
def readItems? (value : ValueReader) :
    (fuel : Nat) → (acc : List Toml) → List Char → Option (Toml × List Char)
  | 0, _, _ => none
  | fuel + 1, acc, cs =>
    match skipAllLines cs with
    | ']' :: rest => some (.array acc.reverse, rest)
    | cs => do
      let (item, cs) ← value cs
      match skipAllLines cs with
      | ',' :: rest => readItems? value fuel (item :: acc) rest
      | ']' :: rest => pure (.array (item :: acc).reverse, rest)
      | _ => none

/-- A key, an equals sign and a value. -/
def readPair? (value : ValueReader) (cs : List Char) : Option ((List String × Toml) × List Char) := do
  let (key, cs) ← readKey? cs
  match cs with
  | '=' :: rest =>
    let (v, cs) ← value (skipSpace rest)
    pure ((key, v), cs)
  | _ => none

/-- The pairs of an inline table up to its brace; no comma follows the last. -/
def readPairs? (value : ValueReader) :
    (fuel : Nat) → (acc : Entries) → List Char → Option (Toml × List Char)
  | 0, _, _ => none
  | fuel + 1, acc, cs => do
    let ((key, v), cs) ← readPair? value cs
    let acc ← Entries.put key v .stated acc
    match skipSpace cs with
    | ',' :: rest => readPairs? value fuel acc rest
    | '}' :: rest => pure (.table (closeEntries acc), rest)
    | _ => none

/-- A value with at most `levels` levels of brackets and braces. -/
def readValue? : (levels : Nat) → ValueReader
  | 0, '[' :: _ => none
  | 0, '{' :: _ => none
  | 0, cs => readScalar? cs
  | levels + 1, '[' :: rest => readItems? (readValue? levels) (rest.length + 1) [] rest
  | levels + 1, '{' :: rest =>
    match skipSpace rest with
    | '}' :: rest => some (.table [], rest)
    | rest => readPairs? (readValue? levels) (rest.length + 1) [] rest
  | _ + 1, cs => readScalar? cs

/-! ## Documents -/

/-- The lines of a document, below the header that was read last. -/
def readLines? : (fuel : Nat) → (header : List String) → Entries → List Char → Option Entries
  | 0, _, _, _ => none
  | fuel + 1, header, root, cs =>
    match skipSpace cs with
    | [] => some root
    | '#' :: rest =>
      match readLineEnd? ('#' :: rest) with
      | some cs => readLines? fuel header root cs
      | none => none
    | '[' :: '[' :: rest => do
      let (path, cs) ← readKey? rest
      match cs with
      | ']' :: ']' :: rest =>
        let cs ← readLineEnd? rest
        let root ← root.openNext path
        readLines? fuel path root cs
      | _ => none
    | '[' :: rest => do
      let (path, cs) ← readKey? rest
      match cs with
      | ']' :: rest =>
        let cs ← readLineEnd? rest
        let root ← root.openTable path
        readLines? fuel path root cs
      | _ => none
    | cs =>
      match lineBreak? cs with
      | some rest => readLines? fuel header root rest
      | none => do
        let ((key, v), cs) ← readPair? (readValue? (depthLimit - 1)) cs
        let cs ← readLineEnd? cs
        let root ← root.putBelow header key v
        readLines? fuel header root cs

/-- Reads a document. A byte order mark at its start is passed over. -/
def read? (cs : List Char) : Option Toml :=
  let cs := match cs with
    | '\ufeff' :: rest => rest
    | cs => cs
  (readLines? (cs.length + 1) [] [] cs).map fun root => .table (closeEntries root)

end Fixtures.Toml
