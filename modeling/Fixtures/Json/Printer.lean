/-
The text of JSON documents, on one line or indented, as the pieces in which it is written: each run
of characters that needs no escape, each escape, each separator and each level of indentation is a
piece of its own.
-/
import Fixtures.Json.Basic

namespace Fixtures.Json

/-! ## Strings -/

/-- The escape of a control character without a short one. -/
def unicodeEscape (c : Char) : List Char :=
  let digit (n : Nat) : Char := "0123456789abcdef".toList.getD n '0'
  ['\\', 'u', '0', '0', digit (c.toNat / 16), digit (c.toNat % 16)]

/-- The escape of a character that cannot stand in a string as it is. -/
def escape? (c : Char) : Option (List Char) :=
  if c = '"' then some ['\\', '"']
  else if c = '\\' then some ['\\', '\\']
  else if c = '\x08' then some ['\\', 'b']
  else if c = '\t' then some ['\\', 't']
  else if c = '\n' then some ['\\', 'n']
  else if c = '\x0c' then some ['\\', 'f']
  else if c = '\r' then some ['\\', 'r']
  else if c.toNat < 32 then some (unicodeEscape c)
  else none

/-- A run of characters as a piece; the run is given newest first, and none is no piece. -/
def runOnto (run : List Char) (acc : List (List Char)) : List (List Char) :=
  if run.isEmpty then acc else run.reverse :: acc

/-- The pieces within the quotes of a string, newest first. -/
def contentOnto (run : List Char) (acc : List (List Char)) : List Char → List (List Char)
  | [] => runOnto run acc
  | c :: rest =>
    match escape? c with
    | none => contentOnto (c :: run) acc rest
    | some escaped => contentOnto [] (escaped :: runOnto run acc) rest

/-- The pieces of a string, newest first. -/
def stringOnto (acc : List (List Char)) (s : String) : List (List Char) :=
  ['"'] :: contentOnto [] (['"'] :: acc) s.toList

/-! ## Documents -/

/-- How a document is laid out. -/
inductive Layout where
  /-- On one line, without spaces. -/
  | compact
  /-- Each item and member on a line of its own, with this many spaces a level. -/
  | indented (width : Nat)
  deriving DecidableEq

namespace Layout

/-- The indentation of a line, a piece a level. -/
def indentOnto (width level : Nat) (acc : List (List Char)) : List (List Char) :=
  List.replicate level (List.replicate width ' ') ++ acc

/-- What stands before an item or member: a comma unless it is the first, and a new line. -/
def startOnto (layout : Layout) (first : Bool) (level : Nat) (acc : List (List Char)) :
    List (List Char) :=
  match layout with
  | compact => if first then acc else [','] :: acc
  | indented width => indentOnto width level ((if first then ['\n'] else [',', '\n']) :: acc)

/-- What stands before a closing bracket: a new line, unless there was no item or member. -/
def stopOnto (layout : Layout) (empty : Bool) (level : Nat) (acc : List (List Char)) :
    List (List Char) :=
  match layout with
  | compact => acc
  | indented width => if empty then acc else indentOnto width level (['\n'] :: acc)

/-- What stands between a name and its value. -/
def colon : Layout → List Char
  | compact => [':']
  | indented _ => [':', ' ']

end Layout

mutual

/-- The pieces of a document at a level, newest first, in front of those there are. -/
def piecesOnto (layout : Layout) (level : Nat) (acc : List (List Char)) : Json → List (List Char)
  | null => "null".toList :: acc
  | bool true => "true".toList :: acc
  | bool false => "false".toList :: acc
  | number n => n.text floatStyle.plus :: acc
  | string s => stringOnto acc s
  | array items =>
    [']'] :: layout.stopOnto items.isEmpty level (itemsOnto layout (level + 1) true (['['] :: acc) items)
  | object members =>
    ['}'] :: layout.stopOnto members.isEmpty level
      (membersOnto layout (level + 1) true (['{'] :: acc) members)
  | unpaired => "null".toList :: acc

def itemsOnto (layout : Layout) (level : Nat) (first : Bool) (acc : List (List Char)) :
    List Json → List (List Char)
  | [] => acc
  | item :: rest =>
    itemsOnto layout level false (piecesOnto layout level (layout.startOnto first level acc) item) rest

def membersOnto (layout : Layout) (level : Nat) (first : Bool) (acc : List (List Char)) :
    List (String × Json) → List (List Char)
  | [] => acc
  | (name, value) :: rest =>
    membersOnto layout level false
      (piecesOnto layout level (layout.colon :: stringOnto (layout.startOnto first level acc) name) value)
      rest

end

/-- The pieces of a document, in order. -/
def pieces (layout : Layout) (j : Json) : List (List Char) := (piecesOnto layout 0 [] j).reverse

/-- The text of a document. -/
def text (layout : Layout) (j : Json) : List Char := (j.pieces layout).flatten

/-- The text of a document on one line. -/
def compact (j : Json) : String := String.ofList (j.text .compact)

end Fixtures.Json
