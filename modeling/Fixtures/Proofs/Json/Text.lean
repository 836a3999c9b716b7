/-
The text of documents by their structure. A string is its characters, each escaped or as it is, between
quotes; an array or object is its items or members between brackets, with gaps between them as the layout
says. This is the text of the pieces in which a document is written.
-/
import Fixtures.Json.Printer

namespace Fixtures.Json

/-! ## Strings -/

/-- A character within a string. -/
def escaped (c : Char) : List Char := (escape? c).getD [c]

/-- The text of a string. -/
def quoted (s : String) : List Char := '"' :: (s.toList.flatMap escaped ++ ['"'])

/-- The text of pieces that are given newest first. -/
def spelled (pieces : List (List Char)) : List Char := pieces.reverse.flatten

@[simp] theorem spelled_nil : spelled [] = [] := rfl

@[simp] theorem spelled_cons (piece : List Char) (pieces : List (List Char)) :
    spelled (piece :: pieces) = spelled pieces ++ piece := by
  simp [spelled]

theorem spelled_append (pieces acc : List (List Char)) : spelled (pieces ++ acc) = spelled acc ++ spelled pieces := by
  simp [spelled]

theorem spelled_runOnto (run : List Char) (acc : List (List Char)) :
    spelled (runOnto run acc) = spelled acc ++ run.reverse := by
  unfold runOnto
  cases run with
  | nil => simp
  | cons c run => simp

theorem spelled_contentOnto (run : List Char) (acc : List (List Char)) (cs : List Char) :
    spelled (contentOnto run acc cs) = spelled acc ++ run.reverse ++ cs.flatMap escaped := by
  induction cs generalizing run acc with
  | nil => simp [contentOnto, spelled_runOnto]
  | cons c cs ih =>
    unfold contentOnto
    rw [List.flatMap_cons, escaped]
    cases hescape : escape? c with
    | none => simp [ih]
    | some escape => simp [ih, spelled_runOnto]

theorem spelled_stringOnto (acc : List (List Char)) (s : String) :
    spelled (stringOnto acc s) = spelled acc ++ quoted s := by
  simp [stringOnto, quoted, spelled_contentOnto]

/-! ## Documents -/

namespace Layout

/-- The white space before an item, a member, or the closing bracket after some. -/
def gap (layout : Layout) (level : Nat) : List Char :=
  match layout with
  | compact => []
  | indented width => '\n' :: List.replicate (level * width) ' '

/-- What stands before an item or member. -/
def start (layout : Layout) (first : Bool) (level : Nat) : List Char :=
  (if first then [] else [',']) ++ layout.gap level

theorem spelled_indentOnto (width level : Nat) (acc : List (List Char)) :
    spelled (indentOnto width level acc) = spelled acc ++ List.replicate (level * width) ' ' := by
  rw [indentOnto, spelled_append]
  simp [spelled]

theorem spelled_startOnto (layout : Layout) (first : Bool) (level : Nat) (acc : List (List Char)) :
    spelled (layout.startOnto first level acc) = spelled acc ++ layout.start first level := by
  cases layout <;> cases first <;> simp [startOnto, start, gap, spelled_indentOnto]

theorem spelled_stopOnto (layout : Layout) (empty : Bool) (level : Nat) (acc : List (List Char)) :
    spelled (layout.stopOnto empty level acc) = spelled acc ++ if empty then [] else layout.gap level := by
  cases layout <;> cases empty <;> simp [stopOnto, gap, spelled_indentOnto]

end Layout

mutual

/-- The text of a document at a level. -/
def textAt (layout : Layout) (level : Nat) : Json → List Char
  | null => "null".toList
  | bool true => "true".toList
  | bool false => "false".toList
  | number n => n.text floatStyle.plus
  | string s => quoted s
  | array items =>
    '[' :: (itemsText layout (level + 1) true items ++ (if items.isEmpty then [] else layout.gap level) ++ [']'])
  | object members =>
    '{' :: (membersText layout (level + 1) true members ++ (if members.isEmpty then [] else layout.gap level) ++ ['}'])
  | unpaired => "null".toList

/-- The text of the items of an array, from the first one or from a later one. -/
def itemsText (layout : Layout) (level : Nat) (first : Bool) : List Json → List Char
  | [] => []
  | item :: rest => layout.start first level ++ textAt layout level item ++ itemsText layout level false rest

/-- The text of the members of an object, from the first one or from a later one. -/
def membersText (layout : Layout) (level : Nat) (first : Bool) : List (String × Json) → List Char
  | [] => []
  | (name, value) :: rest =>
    layout.start first level ++ quoted name ++ layout.colon ++ textAt layout level value ++
      membersText layout level false rest

end

mutual

theorem spelled_piecesOnto (layout : Layout) (level : Nat) (acc : List (List Char)) :
    ∀ j : Json, spelled (piecesOnto layout level acc j) = spelled acc ++ textAt layout level j
  | null => by simp [piecesOnto, textAt]
  | bool true => by simp [piecesOnto, textAt]
  | bool false => by simp [piecesOnto, textAt]
  | number n => by simp [piecesOnto, textAt]
  | string s => by simp [piecesOnto, textAt, spelled_stringOnto]
  | array items => by simp [piecesOnto, textAt, Layout.spelled_stopOnto, spelled_itemsOnto layout _ _ _ items]
  | object members => by simp [piecesOnto, textAt, Layout.spelled_stopOnto, spelled_membersOnto layout _ _ _ members]
  | unpaired => by simp [piecesOnto, textAt]

theorem spelled_itemsOnto (layout : Layout) (level : Nat) (first : Bool) (acc : List (List Char)) :
    ∀ items : List Json,
      spelled (itemsOnto layout level first acc items) = spelled acc ++ itemsText layout level first items
  | [] => by simp [itemsOnto, itemsText]
  | item :: rest => by
    simp [itemsOnto, itemsText, spelled_itemsOnto layout level false _ rest, spelled_piecesOnto layout level _ item,
      Layout.spelled_startOnto]

theorem spelled_membersOnto (layout : Layout) (level : Nat) (first : Bool) (acc : List (List Char)) :
    ∀ members : List (String × Json),
      spelled (membersOnto layout level first acc members) = spelled acc ++ membersText layout level first members
  | [] => by simp [membersOnto, membersText]
  | (name, value) :: rest => by
    simp [membersOnto, membersText, spelled_membersOnto layout level false _ rest,
      spelled_piecesOnto layout level _ value, Layout.spelled_startOnto, spelled_stringOnto]

end

/-- The text of a document is the text by its structure. -/
theorem text_eq (layout : Layout) (j : Json) : j.text layout = textAt layout 0 j := by
  show spelled (piecesOnto layout 0 [] j) = _
  rw [spelled_piecesOnto, spelled_nil, List.nil_append]

end Fixtures.Json
