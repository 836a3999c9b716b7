/-
JSON documents as documents to read values from. A record may be an object, in which no known name
is repeated, or an array of its fields.
-/
import Fixtures.Document
import Fixtures.Json.Basic
import Fixtures.Kind

namespace Fixtures.Json

/-- The known members of an object, if none is repeated. -/
def knownMembers? (names : List String) (members : List (String × Json)) :
    Option (List (String × Json)) :=
  let known := members.filter fun (name, _) => name ∈ names
  if (known.map Prod.fst).Nodup then some known else none

/-- The items of an array by name, if there are not more than names. -/
def namedItems? (names : List String) (items : List Json) : Option (List (String × Json)) :=
  if items.length ≤ names.length then some (names.zip items) else none

/-- An integer is written without point and exponent; a negative zero is none. -/
def toInteger? : Json → Option Int
  | number n => if n.isInteger && !(n.negative && n.toInt == 0) then some n.toInt else none
  | _ => none

instance : Document Json where
  fields? names
    | object members => knownMembers? names members
    | array items => namedItems? names items
    | _ => none
  isNull
    | null => true
    | _ => false
  integer? := toInteger?
  double?
    | number n => n.scaled?
    | _ => none
  text?
    | string s => some s
    | _ => none
  bool?
    | bool b => some b
    | _ => none

/-- A kind is given by its name, or by an object with the name alone and nothing under it. -/
def kind? : Json → Option Kind
  | string s => Kind.ofSerialName? s
  | object [(name, null)] => Kind.ofSerialName? name
  | _ => none

end Fixtures.Json
