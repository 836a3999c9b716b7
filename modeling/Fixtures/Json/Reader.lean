/-
The reader of JSON documents. It takes exactly one document, with white space around it.
-/
import Fixtures.Json.Basic

namespace Fixtures.Json

/-- The white space between tokens. -/
def isSpace (c : Char) : Bool := c == ' ' || c == '\n' || c == '\t' || c == '\r'

def skipSpace (cs : List Char) : List Char := cs.dropWhile isSpace

/-! ## Numbers -/

/-- A run of at least one digit, and the rest. -/
def readDigits? (cs : List Char) : Option (List Char × List Char) :=
  let digits := cs.takeWhile Char.isDigit
  if digits.isEmpty then none else some (digits, cs.dropWhile Char.isDigit)

/-- The digits before the point, without leading zeros. -/
def readWhole? (cs : List Char) : Option (List Char × List Char) :=
  match readDigits? cs with
  | some ('0' :: _ :: _, _) => none
  | r => r

/-- The digits after a point, if there is one. -/
def readFraction? : List Char → Option (List Char × List Char)
  | '.' :: rest => readDigits? rest
  | cs => some ([], cs)

/-- The number after an exponent mark. -/
def readSigned? : List Char → Option (Int × List Char)
  | '-' :: rest => (readDigits? rest).map fun (ds, rest) => (-(digitsValue ds : Int), rest)
  | '+' :: rest => (readDigits? rest).map fun (ds, rest) => ((digitsValue ds : Int), rest)
  | cs => (readDigits? cs).map fun (ds, rest) => ((digitsValue ds : Int), rest)

/-- An exponent, if there is one. -/
def readExponent? : List Char → Option (Option Int × List Char)
  | 'e' :: rest => (readSigned? rest).map fun (e, rest) => (some e, rest)
  | 'E' :: rest => (readSigned? rest).map fun (e, rest) => (some e, rest)
  | cs => some (none, cs)

/-- A numeral without its sign. -/
def readUnsigned? (negative : Bool) (cs : List Char) : Option (Numeral × List Char) := do
  let (whole, cs) ← readWhole? cs
  let (fraction, cs) ← readFraction? cs
  let (exponent, cs) ← readExponent? cs
  pure (⟨negative, whole, fraction, exponent⟩, cs)

def readNumeral? : List Char → Option (Numeral × List Char)
  | '-' :: rest => readUnsigned? true rest
  | cs => readUnsigned? false cs

/-! ## Strings -/

/-- The value of a hexadecimal digit. -/
def hexDigit? (c : Char) : Option Nat :=
  let n := c.toNat
  if 48 ≤ n ∧ n ≤ 57 then some (n - 48)
  else if 97 ≤ n ∧ n ≤ 102 then some (n - 87)
  else if 65 ≤ n ∧ n ≤ 70 then some (n - 55)
  else none

/-- The value of four hexadecimal digits. -/
def hexUnit? (a b c d : Char) : Option Nat := do
  return ((← hexDigit? a) * 16 + (← hexDigit? b)) * 256 + ((← hexDigit? c) * 16 + (← hexDigit? d))

/-- A unit that needs a low half after it. -/
def isHighHalf (unit : Nat) : Bool := 0xd800 ≤ unit && unit < 0xdc00

/-- A unit that needs a high half before it. -/
def isLowHalf (unit : Nat) : Bool := 0xdc00 ≤ unit && unit < 0xe000

/-- The character that two halves stand for. -/
def joinHalves (high low : Nat) : Char :=
  Char.ofNat (0x10000 + (high - 0xd800) * 0x400 + (low - 0xdc00))

/-- The character behind a backslash, for the short escapes. -/
def shortEscape? (c : Char) : Option Char :=
  if c = '"' ∨ c = '\\' ∨ c = '/' then some c
  else if c = 'b' then some '\x08'
  else if c = 'f' then some '\x0c'
  else if c = 'n' then some '\n'
  else if c = 'r' then some '\r'
  else if c = 't' then some '\t'
  else none

/-- Reads a string from behind its opening quote. `paired` says whether all halves of surrogate pairs
had their other half so far; a string in which one had not stands for no text. -/
def readContent? (acc : List Char) (paired : Bool) :
    List Char → Option (Option String × List Char)
  | [] => none
  | '"' :: rest => some (if paired then some (String.ofList acc.reverse) else none, rest)
  | '\\' :: 'u' :: a :: b :: c :: d :: rest =>
    match hexUnit? a b c d with
    | none => none
    | some unit =>
      if isHighHalf unit then
        match rest with
        | '\\' :: 'u' :: a :: b :: c :: d :: behind =>
          match hexUnit? a b c d with
          | none => none
          | some other =>
            if isLowHalf other then readContent? (joinHalves unit other :: acc) paired behind
            else readContent? acc false ('\\' :: 'u' :: a :: b :: c :: d :: behind)
        | rest => readContent? acc false rest
      else if isLowHalf unit then readContent? acc false rest
      else readContent? (Char.ofNat unit :: acc) paired rest
  | '\\' :: c :: rest =>
    match shortEscape? c with
    | some c => readContent? (c :: acc) paired rest
    | none => none
  | c :: rest => if c.toNat < 32 then none else readContent? (c :: acc) paired rest

/-! ## Documents -/

/-- The object of some members, newest first; if a name stands for no text, so does the object. -/
def ofMembers (members : List (Option String × Json)) : Json :=
  match members.reverse.mapM fun (name, value) => name.map fun s => (s, value) with
  | some members => object members
  | none => unpaired

mutual

/-- Reads a document at the start of a text. The fuel bounds the number of steps. -/
def readValue? : (fuel : Nat) → List Char → Option (Json × List Char)
  | 0, _ => none
  | fuel + 1, cs =>
    match skipSpace cs with
    | 'n' :: 'u' :: 'l' :: 'l' :: rest => some (null, rest)
    | 't' :: 'r' :: 'u' :: 'e' :: rest => some (bool true, rest)
    | 'f' :: 'a' :: 'l' :: 's' :: 'e' :: rest => some (bool false, rest)
    | '"' :: rest =>
      (readContent? [] true rest).map fun (s, rest) => ((s.map string).getD unpaired, rest)
    | '[' :: rest =>
      match skipSpace rest with
      | ']' :: rest => some (array [], rest)
      | rest => readItems? fuel [] rest
    | '{' :: rest =>
      match skipSpace rest with
      | '}' :: rest => some (object [], rest)
      | rest => readMembers? fuel [] rest
    | cs => (readNumeral? cs).map fun (n, rest) => (number n, rest)

/-- Reads the items of an array up to its bracket, and puts them in front of those read before. -/
def readItems? : (fuel : Nat) → List Json → List Char → Option (Json × List Char)
  | 0, _, _ => none
  | fuel + 1, acc, cs =>
    match readValue? fuel cs with
    | none => none
    | some (item, rest) =>
      match skipSpace rest with
      | ',' :: rest => readItems? fuel (item :: acc) rest
      | ']' :: rest => some (array (item :: acc).reverse, rest)
      | _ => none

/-- Reads the members of an object up to its brace. -/
def readMembers? : (fuel : Nat) → List (Option String × Json) → List Char → Option (Json × List Char)
  | 0, _, _ => none
  | fuel + 1, acc, cs =>
    match skipSpace cs with
    | '"' :: rest =>
      match readContent? [] true rest with
      | none => none
      | some (name, rest) =>
        match skipSpace rest with
        | ':' :: rest =>
          match readValue? fuel rest with
          | none => none
          | some (value, rest) =>
            match skipSpace rest with
            | ',' :: rest => readMembers? fuel ((name, value) :: acc) rest
            | '}' :: rest => some (ofMembers ((name, value) :: acc), rest)
            | _ => none
        | _ => none
    | _ => none

end

/-- Reads a text that holds one document. -/
def read? (cs : List Char) : Option Json :=
  match readValue? (2 * cs.length + 1) cs with
  | some (j, rest) => if (skipSpace rest).isEmpty then some j else none
  | none => none

end Fixtures.Json
