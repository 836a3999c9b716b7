/-
Which regular expressions can be used: those that match texts of whole characters alone, need no table
of letters beyond ASCII, and are not nested too deeply.
-/
import Fixtures.Pattern.Reader

namespace Fixtures

/-- How the characters of a part are understood. -/
structure PatternMode where
  unicode : Bool := true
  ignoreCase : Bool := false
  deriving DecidableEq

namespace PatternMode

/-- The mode after some changes. -/
def apply (m : PatternMode) (changes : FlagChanges) : PatternMode :=
  ⟨(changes.lookup .unicode).getD m.unicode, (changes.lookup .ignoreCase).getD m.ignoreCase⟩

end PatternMode

/-- Whether a character is one of ASCII. -/
def isAscii (c : Char) : Bool := c.toNat < 128

namespace CharSet

mutual

/-- Whether a set can be used. As characters of Unicode, the sets of digits and words need tables, and
so does each member if case is ignored. As bytes, a set must not reach beyond ASCII. -/
def isUsable (m : PatternMode) : CharSet → Bool
  | char c => if m.unicode then !m.ignoreCase else isAscii c.char
  | range first last => if m.unicode then !m.ignoreCase else isAscii first.char && isAscii last.char
  | named negated => if m.unicode then !m.ignoreCase else !negated
  | shorthand negated => !m.unicode && !negated
  | union members => areUsable m members
  | operation left right => left.isUsable m && right.isUsable m
  | bracketed negated inner => (m.unicode || !negated) && inner.isUsable m

def areUsable (m : PatternMode) : List CharSet → Bool
  | [] => true
  | s :: rest => s.isUsable m && areUsable m rest

end

end CharSet

namespace Pattern

mutual

/-- The mode behind a part, if the part can be used. Bytes may be written by their code only in ASCII,
and a dot would match each of them; the places of words need a table unless they are those of ASCII. -/
def modeAfter? (m : PatternMode) : Pattern → Option PatternMode
  | empty => some m
  | char c =>
    if m.unicode then if m.ignoreCase then none else some m
    else if c.byte && !isAscii c.char then none else some m
  | dot => if m.unicode then some m else none
  | anchor => some m
  | wordBoundary => if m.unicode then none else some m
  | shorthand negated => if m.unicode || negated then none else some m
  | set negated inner => if (CharSet.bracketed negated inner).isUsable m then some m else none
  | switch changes => some (m.apply changes)
  | repetition p => p.modeAfter? m
  | group changes p => (p.modeAfter? (m.apply changes)).map fun _ => m
  | sequence parts => modeAfterAll? m parts
  | choice branches => modeAfterAll? m branches

def modeAfterAll? (m : PatternMode) : List Pattern → Option PatternMode
  | [] => some m
  | p :: rest => (p.modeAfter? m).bind fun m => modeAfterAll? m rest

end

/-- The most levels of parts within each other. -/
def maxDepth : Nat := 250

/-- Whether a text is a pattern that can be used. -/
def isUsable (cs : List Char) : Bool :=
  match read? cs with
  | none => false
  | some p => p.depth ≤ maxDepth && (p.modeAfter? {}).isSome

end Pattern

end Fixtures
