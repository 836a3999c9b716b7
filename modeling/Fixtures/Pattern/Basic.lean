/-
Regular expressions as trees. What they match is not looked at; of each part only as much is kept as
decides whether it can be used.
-/

namespace Fixtures

/-- A character of a pattern. `byte` tells that it is written by two hexadecimal digits, which name a
byte where the pattern is read as bytes. -/
structure PatternChar where
  char : Char
  byte : Bool
  deriving DecidableEq, Inhabited

/-- A set of characters within brackets. -/
inductive CharSet where
  | char (c : PatternChar)
  | range (first last : PatternChar)
  /-- A set with a name between colons. -/
  | named (negated : Bool)
  /-- The digits, the spaces, or the characters of words. -/
  | shorthand (negated : Bool)
  | union (members : List CharSet)
  /-- What two sets have in common, or one of them alone. -/
  | operation (left right : CharSet)
  | bracketed (negated : Bool) (inner : CharSet)
  deriving Inhabited

/-- The switches of a pattern. -/
inductive PatternFlag where
  | ignoreCase
  | manyLines
  | dotMatchesAll
  | swapGreed
  | carriageReturns
  /-- Characters are those of Unicode, and not bytes. -/
  | unicode
  /-- Blanks and comments are skipped. -/
  | extended
  deriving DecidableEq

/-- Switches that are set or cleared. -/
abbrev FlagChanges := List (PatternFlag × Bool)

/-- A regular expression. -/
inductive Pattern where
  | empty
  | char (c : PatternChar)
  | dot
  /-- A start or an end, of the text or of a line. -/
  | anchor
  /-- A place where a word starts or ends, or where none does. -/
  | wordBoundary
  | shorthand (negated : Bool)
  | set (negated : Bool) (inner : CharSet)
  /-- Changes for what follows within the same group. -/
  | switch (changes : FlagChanges)
  | repetition (p : Pattern)
  | group (changes : FlagChanges) (p : Pattern)
  | sequence (parts : List Pattern)
  | choice (branches : List Pattern)
  deriving Inhabited

namespace CharSet

/-- The union of some sets; of one set it is that set. -/
def ofList : List CharSet → CharSet
  | [s] => s
  | members => union members

mutual

/-- How deep sets are nested within each other. -/
def depth : CharSet → Nat
  | char _ => 0
  | range _ _ => 0
  | named _ => 0
  | shorthand _ => 0
  | union [] => 0
  | union (s :: members) => max s.depth (depths members) + 1
  | operation left right => max left.depth right.depth + 1
  | bracketed _ inner => inner.depth + 1

def depths : List CharSet → Nat
  | [] => 0
  | s :: rest => max s.depth (depths rest)

end

end CharSet

namespace Pattern

/-- Some parts one behind the other. -/
def ofParts : List Pattern → Pattern
  | [] => empty
  | [p] => p
  | parts => sequence parts

/-- One of some branches. -/
def ofBranches : List Pattern → Pattern
  | [p] => p
  | branches => choice branches

mutual

/-- How deep parts are nested within each other. -/
def depth : Pattern → Nat
  | empty => 0
  | char _ => 0
  | dot => 0
  | anchor => 0
  | wordBoundary => 0
  | shorthand _ => 0
  | switch _ => 0
  | set _ inner => inner.depth + 1
  | repetition p => p.depth + 1
  | group _ p => p.depth + 1
  | sequence parts => depths parts + 1
  | choice branches => depths branches + 1

def depths : List Pattern → Nat
  | [] => 0
  | p :: rest => max p.depth (depths rest)

end

end Pattern

end Fixtures
