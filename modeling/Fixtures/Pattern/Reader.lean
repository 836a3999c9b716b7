/-
Reading regular expressions. A brace opens a repetition, a name or a number that ends with the other
brace; the text of a pattern holds no such one, so an opening brace is never right outside of a set.
-/
import Fixtures.Pattern.Basic
import Fixtures.Text.Alphanumeric
import Fixtures.Text.Blank

namespace Fixtures

namespace Pattern

/-! ## Blanks -/

/-- A text without the blanks and the comments at its start, from within a comment or not. -/
def skipBlanks : (comment : Bool) → List Char → List Char
  | _, [] => []
  | true, c :: rest => skipBlanks (c != '\n') rest
  | false, c :: rest =>
    if isBlank c then skipBlanks false rest
    else if c = '#' then skipBlanks true rest
    else c :: rest

/-- What is skipped between the marks of a pattern. -/
def skip (extended : Bool) (cs : List Char) : List Char := if extended then skipBlanks false cs else cs

/-- The next character that counts. A comment is taken to end where its text starts. -/
def next? (extended : Bool) (cs : List Char) : Option Char :=
  if !extended then cs.head?
  else
    let behind := match trimLeft cs with
      | '#' :: rest => trimLeft rest
      | cs => cs
    behind.head?.or cs.head?

/-! ## Escapes -/

/-- The value of a hexadecimal digit. -/
def hexValue? (c : Char) : Option Nat :=
  if c.isDigit then some (c.toNat - '0'.toNat)
  else if 'a' ≤ c && c ≤ 'f' then some (c.toNat - 'a'.toNat + 10)
  else if 'A' ≤ c && c ≤ 'F' then some (c.toNat - 'A'.toNat + 10)
  else none

/-- A number of hexadecimal digits behind a value. -/
def readHex? (extended : Bool) : (digits value : Nat) → List Char → Option (Nat × List Char)
  | 0, value, cs => some (value, skip extended cs)
  | digits + 1, value, cs =>
    match skip extended cs with
    | [] => none
    | c :: rest => (hexValue? c).bind fun digit => readHex? extended digits (16 * value + digit) rest

/-- A character that some hexadecimal digits name. -/
def readCode? (extended : Bool) (digits : Nat) (cs : List Char) : Option (Pattern × List Char) :=
  match readHex? extended digits 0 cs with
  | some (n, rest) => if n.isValidChar then some (char ⟨Char.ofNat n, digits == 2⟩, rest) else none
  | none => none

/-- The letters that stand for one control character each behind a backslash. -/
def controls : List (Char × Char) :=
  [('a', '\x07'), ('f', '\x0c'), ('t', '\t'), ('n', '\n'), ('r', '\r'), ('v', '\x0b')]

/-- Reads an escape, whose backslash is taken. Other letters and digits are none; nor are properties,
for which there are no tables. -/
def readEscape? (extended : Bool) : List Char → Option (Pattern × List Char)
  | [] => none
  | 'x' :: rest => readCode? extended 2 rest
  | 'u' :: rest => readCode? extended 4 rest
  | 'U' :: rest => readCode? extended 8 rest
  | c :: rest =>
    if c = 'd' || c = 's' || c = 'w' then some (shorthand false, rest)
    else if c = 'D' || c = 'S' || c = 'W' then some (shorthand true, rest)
    else if c = 'A' || c = 'z' then some (anchor, rest)
    else if c = 'b' || c = 'B' || c = '<' || c = '>' then some (wordBoundary, rest)
    else match controls.lookup c with
      | some control => some (char ⟨control, false⟩, rest)
      | none =>
        if c.toNat < 128 && !c.isAlphanum then some (char ⟨c, false⟩, rest) else none

/-! ## Sets -/

/-- The names of sets. -/
def setNames : List String := ["alnum", "alpha", "ascii", "blank", "cntrl", "digit", "graph", "lower",
  "print", "punct", "space", "upper", "word", "xdigit"]

/-- Reads a set with a name, whose opening bracket is taken. -/
def readNamed? (cs : List Char) : Option (CharSet × List Char) :=
  match cs with
  | ':' :: rest =>
    let (negated, rest) := match rest with
      | '^' :: rest => (true, rest)
      | rest => (false, rest)
    match rest.dropWhile (· != ':') with
    | ':' :: ']' :: behind =>
      if setNames.contains (String.ofList (rest.takeWhile (· != ':'))) then some (.named negated, behind)
      else none
    | _ => none
  | _ => none

/-- Takes hyphens at the start of a set, which stand for themselves; none if the text ends. -/
def readHyphens? (extended : Bool) : (fuel : Nat) → (read : List CharSet) → List Char →
    Option (List CharSet × List Char)
  | 0, _, _ => none
  | fuel + 1, read, cs =>
    match skip extended cs with
    | [] => none
    | '-' :: rest => readHyphens? extended fuel (.char ⟨'-', false⟩ :: read) rest
    | cs => some (read, cs)

/-- Reads the start of a set, whose opening bracket is taken: whether it is negated, and the members
that would be marks elsewhere, newest first. -/
def readOpening? (extended : Bool) (cs : List Char) : Option (Bool × List CharSet × List Char) :=
  let (negated, cs) := match skip extended cs with
    | '^' :: rest => (true, rest)
    | cs => (false, cs)
  match readHyphens? extended (cs.length + 1) [] cs with
  | none => none
  | some ([], ']' :: rest) =>
    if (skip extended rest).isEmpty then none else some (negated, [.char ⟨']', false⟩], rest)
  | some (read, cs) => some (negated, read, cs)

/-- Reads a member of a set: an escape, or a character that stands for itself. -/
def readMember? (extended : Bool) : List Char → Option (Pattern × List Char)
  | [] => none
  | '\\' :: rest => readEscape? extended rest
  | c :: rest => some (char ⟨c, false⟩, rest)

/-- The set that a member is by itself. -/
def memberSet? : Pattern → Option CharSet
  | char c => some (.char c)
  | shorthand negated => some (.shorthand negated)
  | _ => none

/-- Reads a member of a set, or a range of two characters of which the first is not after the second.
A hyphen in front of another one or of the end is no range. -/
def readRange? (extended : Bool) (cs : List Char) : Option (CharSet × List Char) :=
  match readMember? extended cs with
  | none => none
  | some (first, rest) =>
    match skip extended rest with
    | [] => none
    | '-' :: behind =>
      if next? extended behind = some ']' ∨ next? extended behind = some '-' then
        (memberSet? first).map fun s => (s, '-' :: behind)
      else match first, readMember? extended (skip extended behind) with
        | char first, some (char last, rest) =>
          if first.char ≤ last.char then some (.range first last, rest) else none
        | _, _ => none
    | rest => (memberSet? first).map fun s => (s, rest)

/-- A set behind an operation, if there is one. -/
def operate (left : Option CharSet) (right : CharSet) : CharSet :=
  match left with
  | none => right
  | some left => .operation left right

/-- Reads the members of a set up to and including its closing bracket; those read before are given
newest first, and so is what stands before the last operation. -/
def readMembers? (extended : Bool) : (fuel : Nat) → (left : Option CharSet) → (read : List CharSet) →
    List Char → Option (CharSet × List Char)
  | 0, _, _, _ => none
  | fuel + 1, left, read, cs =>
    let operand := operate left (.ofList read.reverse)
    match skip extended cs with
    | [] => none
    | ']' :: rest => some (operand, rest)
    | '&' :: '&' :: rest => readMembers? extended fuel (some operand) [] rest
    | '-' :: '-' :: rest => readMembers? extended fuel (some operand) [] rest
    | '~' :: '~' :: rest => readMembers? extended fuel (some operand) [] rest
    | '[' :: rest =>
      match readNamed? rest with
      | some (named, rest) => readMembers? extended fuel left (named :: read) rest
      | none =>
        match readOpening? extended rest with
        | none => none
        | some (negated, members, rest) =>
          match readMembers? extended fuel none members rest with
          | none => none
          | some (inner, rest) =>
            readMembers? extended fuel left (.bracketed negated inner :: read) rest
    | cs =>
      match readRange? extended cs with
      | none => none
      | some (member, rest) => readMembers? extended fuel left (member :: read) rest

/-- Reads a set, whose opening bracket is taken. -/
def readSet? (extended : Bool) (cs : List Char) : Option (Pattern × List Char) :=
  match readOpening? extended cs with
  | none => none
  | some (negated, members, rest) =>
    (readMembers? extended (2 * rest.length + 2) none members rest).map fun (inner, rest) =>
      (set negated inner, rest)

/-! ## Groups -/

def flag? : Char → Option PatternFlag
  | 'i' => some .ignoreCase
  | 'm' => some .manyLines
  | 's' => some .dotMatchesAll
  | 'U' => some .swapGreed
  | 'R' => some .carriageReturns
  | 'u' => some .unicode
  | 'x' => some .extended
  | _ => none

/-- Reads flags up to a colon or a parenthesis: none is named twice, and some follow a minus. The last
result tells whether a colon ends them. -/
def readFlags? : (cleared : Bool) → (changes : FlagChanges) → List Char →
    Option (FlagChanges × Bool × List Char)
  | _, _, [] => none
  | _, changes, ':' :: rest => some (changes, true, rest)
  | _, changes, ')' :: rest => some (changes, false, rest)
  | cleared, changes, '-' :: rest =>
    match cleared, rest with
    | true, _ => none
    | _, [] | _, ':' :: _ | _, ')' :: _ => none
    | false, rest => readFlags? true changes rest
  | cleared, changes, c :: rest =>
    match flag? c with
    | none => none
    | some flag =>
      if changes.any fun change => change.1 = flag then none
      else readFlags? cleared (changes ++ [(flag, !cleared)]) rest

/-- Whether characters are skipped after some changes. -/
def extendedAfter (changes : FlagChanges) (extended : Bool) : Bool :=
  (changes.lookup .extended).getD extended

/-- A name of a group starts with a letter or a line; digits, points and brackets may follow. -/
def isName : List Char → Bool
  | [] => false
  | c :: rest =>
    (isLetter c || c == '_') &&
      rest.all fun c => isAlphanumeric c || c == '_' || c == '.' || c == '[' || c == ']'

/-- The start of a group. -/
inductive Opening where
  /-- Flags that stand alone. -/
  | switch (changes : FlagChanges)
  | group (changes : FlagChanges) (name : Option String)

/-- Reads a name and the bracket behind it. -/
def readName? (cs : List Char) : Option (Opening × List Char) :=
  let name := cs.takeWhile (· != '>')
  match cs.dropWhile (· != '>') with
  | [] => none
  | _ :: rest => if isName name then some (.group [] (some (String.ofList name)), rest) else none

/-- Reads the start of a group, whose parenthesis is taken. Nothing is looked for ahead or behind. -/
def readGroup? (extended : Bool) (cs : List Char) : Option (Opening × List Char) :=
  match skip extended cs with
  | '?' :: 'P' :: '<' :: rest => readName? rest
  | '?' :: '<' :: rest => readName? rest
  | '?' :: rest =>
    match readFlags? false [] rest with
    | none => none
    | some (changes, true, rest) => some (.group changes none, rest)
    | some (changes, false, rest) => if changes.isEmpty then none else some (.switch changes, rest)
  | cs => some (.group [] none, cs)

/-! ## Patterns -/

/-- A text that is being read: whether blanks are skipped, the names of the groups so far, and what
is left. -/
structure Reading where
  extended : Bool
  names : List String
  rest : List Char

/-- What is repeated, if a repetition can be about it. -/
def repeated? : Pattern → Option Pattern
  | empty => none
  | switch _ => none
  | p => some (repetition p)

/-- A text without the question mark that makes a repetition a short one. -/
def skipShort : List Char → List Char
  | '?' :: rest => rest
  | cs => cs

/-- Reads a part that is one mark or character. -/
def readSingle? (extended : Bool) : List Char → Option (Pattern × List Char)
  | [] => none
  | '\\' :: rest => readEscape? extended rest
  | '.' :: rest => some (dot, rest)
  | '^' :: rest => some (anchor, rest)
  | '$' :: rest => some (anchor, rest)
  | '\x7b' :: _ => none
  | c :: rest => some (char ⟨c, false⟩, rest)

/-- Reads the content of a group, up to its parenthesis or the end. The branches before the last one
and its parts are given newest first. -/
def readContent? : (fuel : Nat) → (branches parts : List Pattern) → Reading → Option (Pattern × Reading)
  | 0, _, _, _ => none
  | fuel + 1, branches, parts, r =>
    let branch := ofParts parts.reverse
    let rest := skip r.extended r.rest
    let content := (ofBranches (branch :: branches).reverse, { r with rest := rest })
    match rest with
    | [] => some content
    | ')' :: _ => some content
    | '|' :: rest => readContent? fuel (branch :: branches) [] { r with rest := rest }
    | '[' :: rest =>
      match readSet? r.extended rest with
      | none => none
      | some (p, rest) => readContent? fuel branches (p :: parts) { r with rest := rest }
    | '(' :: rest =>
      match readGroup? r.extended rest with
      | none => none
      | some (.switch changes, rest) =>
        readContent? fuel branches (switch changes :: parts)
          { r with extended := extendedAfter changes r.extended, rest := rest }
      | some (.group changes name, rest) =>
        if name.any r.names.contains then none
        else
          let inner : Reading := ⟨extendedAfter changes r.extended, name.toList ++ r.names, rest⟩
          match readContent? fuel [] [] inner with
          | some (p, ⟨_, names, ')' :: rest⟩) =>
            readContent? fuel branches (group changes p :: parts) ⟨r.extended, names, rest⟩
          | _ => none
    | c :: rest =>
      if c = '?' || c = '*' || c = '+' then
        match parts with
        | [] => none
        | p :: parts =>
          match repeated? p with
          | none => none
          | some p => readContent? fuel branches (p :: parts) { r with rest := skipShort rest }
      else match readSingle? r.extended (c :: rest) with
        | none => none
        | some (p, rest) => readContent? fuel branches (p :: parts) { r with rest := rest }

/-- Reads a pattern that takes up a whole text. -/
def read? (cs : List Char) : Option Pattern :=
  match readContent? (2 * cs.length + 2) [] [] ⟨false, [], cs⟩ with
  | some (p, r) => if r.rest.isEmpty then some p else none
  | none => none

end Pattern

end Fixtures
