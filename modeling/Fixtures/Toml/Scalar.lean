/-
The scalars of TOML: strings of four sorts, numbers, days and times. A reader takes a scalar at the
start of a text and gives what is left.
-/
import Fixtures.Decimal.Numeral
import Fixtures.Calendar.Date
import Fixtures.Toml.Basic

namespace Fixtures.Toml

/-! ## Characters -/

/-- A blank within a line. -/
def isSpace (c : Char) : Bool := c == ' ' || c == '\t'

/-- A character that may stand in a comment or a literal: all but control characters; the tabulator
may. -/
def isPlain (c : Char) : Bool := c == '\t' || (32 ≤ c.toNat && c.toNat != 127)

def skipSpace (cs : List Char) : List Char := cs.dropWhile isSpace

/-- The rest behind an end of line. -/
def lineBreak? : List Char → Option (List Char)
  | '\n' :: rest => some rest
  | '\r' :: '\n' :: rest => some rest
  | _ => none

def hexDigit? (c : Char) : Option Nat :=
  let n := c.toNat
  if 48 ≤ n ∧ n ≤ 57 then some (n - 48)
  else if 97 ≤ n ∧ n ≤ 102 then some (n - 87)
  else if 65 ≤ n ∧ n ≤ 70 then some (n - 55)
  else none

/-- The number that hexadecimal digits spell. -/
def hexValue? (cs : List Char) : Option Nat :=
  cs.foldlM (fun n c => (hexDigit? c).map (16 * n + ·)) 0

/-- The character with a number; the halves of surrogate pairs have none. -/
def charOf? (n : Nat) : Option Char :=
  if n < 0xd800 ∨ (0xdfff < n ∧ n < 0x110000) then some (Char.ofNat n) else none

/-! ## Strings -/

/-- The character that a short escape stands for. -/
def shortEscape? (c : Char) : Option Char :=
  if c = '"' ∨ c = '\\' then some c
  else if c = 'b' then some '\x08'
  else if c = 't' then some '\t'
  else if c = 'n' then some '\n'
  else if c = 'f' then some '\x0c'
  else if c = 'r' then some '\r'
  else none

/-- Reads a string from behind its opening quote. -/
def readBasic? (acc : List Char) : List Char → Option (List Char × List Char)
  | [] => none
  | '"' :: rest => some (acc.reverse, rest)
  | '\\' :: 'u' :: a :: b :: c :: d :: rest =>
    match (hexValue? [a, b, c, d]).bind charOf? with
    | some ch => readBasic? (ch :: acc) rest
    | none => none
  | '\\' :: 'U' :: a :: b :: c :: d :: e :: f :: g :: h :: rest =>
    match (hexValue? [a, b, c, d, e, f, g, h]).bind charOf? with
    | some ch => readBasic? (ch :: acc) rest
    | none => none
  | '\\' :: c :: rest =>
    match shortEscape? c with
    | some ch => readBasic? (ch :: acc) rest
    | none => none
  | c :: rest => if isPlain c then readBasic? (c :: acc) rest else none

/-- Whether only blanks stand before the end of the line. -/
def endsLine (cs : List Char) : Bool := (lineBreak? (skipSpace cs)).isSome

/-- Reads a string of several lines from behind its opening quotes. While `skip` is set, blanks and
ends of lines are passed over. Up to two quotes may stand before the closing three. -/
def readLongBasic? (acc : List Char) (skip : Bool) : List Char → Option (List Char × List Char)
  | [] => none
  | '"' :: '"' :: '"' :: '"' :: '"' :: rest => some (('"' :: '"' :: acc).reverse, rest)
  | '"' :: '"' :: '"' :: '"' :: rest => some (('"' :: acc).reverse, rest)
  | '"' :: '"' :: '"' :: rest => some (acc.reverse, rest)
  | '\r' :: '\n' :: rest => readLongBasic? (if skip then acc else '\n' :: acc) skip rest
  | '\n' :: rest => readLongBasic? (if skip then acc else '\n' :: acc) skip rest
  | '\\' :: 'u' :: a :: b :: c :: d :: rest =>
    match (hexValue? [a, b, c, d]).bind charOf? with
    | some ch => readLongBasic? (ch :: acc) false rest
    | none => none
  | '\\' :: 'U' :: a :: b :: c :: d :: e :: f :: g :: h :: rest =>
    match (hexValue? [a, b, c, d, e, f, g, h]).bind charOf? with
    | some ch => readLongBasic? (ch :: acc) false rest
    | none => none
  | '\\' :: c :: rest =>
    if endsLine (c :: rest) then readLongBasic? acc true (c :: rest)
    else
      match shortEscape? c with
      | some ch => readLongBasic? (ch :: acc) false rest
      | none => none
  | c :: rest =>
    if skip && isSpace c then readLongBasic? acc true rest
    else if isPlain c then readLongBasic? (c :: acc) false rest
    else none

/-- Reads a literal string from behind its opening mark. -/
def readLiteral? (acc : List Char) : List Char → Option (List Char × List Char)
  | [] => none
  | '\'' :: rest => some (acc.reverse, rest)
  | c :: rest => if isPlain c then readLiteral? (c :: acc) rest else none

/-- Reads a literal string of several lines from behind its opening marks. -/
def readLongLiteral? (acc : List Char) : List Char → Option (List Char × List Char)
  | [] => none
  | '\'' :: '\'' :: '\'' :: '\'' :: '\'' :: rest => some (('\'' :: '\'' :: acc).reverse, rest)
  | '\'' :: '\'' :: '\'' :: '\'' :: rest => some (('\'' :: acc).reverse, rest)
  | '\'' :: '\'' :: '\'' :: rest => some (acc.reverse, rest)
  | '\r' :: '\n' :: rest => readLongLiteral? ('\n' :: acc) rest
  | '\n' :: rest => readLongLiteral? ('\n' :: acc) rest
  | c :: rest => if isPlain c then readLongLiteral? (c :: acc) rest else none

/-- A text without an end of line at its start. -/
def dropLineBreak (cs : List Char) : List Char := (lineBreak? cs).getD cs

/-- Reads a string of any sort. -/
def readString? : List Char → Option (List Char × List Char)
  | '"' :: '"' :: '"' :: rest => readLongBasic? [] false (dropLineBreak rest)
  | '"' :: rest => readBasic? [] rest
  | '\'' :: '\'' :: '\'' :: rest => readLongLiteral? [] (dropLineBreak rest)
  | '\'' :: rest => readLiteral? [] rest
  | _ => none

/-! ## Numbers -/

/-- Digits of a kind, with single underscores between them; at least one. -/
def readDigits? (isDigit : Char → Bool) : List Char → Option (List Char × List Char)
  | [] => none
  | c :: rest =>
    if !isDigit c then none
    else
      let rec more (acc : List Char) : List Char → List Char × List Char
        | '_' :: d :: rest => if isDigit d then more (d :: acc) rest else (acc.reverse, '_' :: d :: rest)
        | d :: rest => if isDigit d then more (d :: acc) rest else (acc.reverse, d :: rest)
        | [] => (acc.reverse, [])
      some (more [c] rest)

/-- A sign, if there is one: whether it is a minus, and the rest. -/
def readSign : List Char → Bool × List Char
  | '-' :: rest => (true, rest)
  | '+' :: rest => (false, rest)
  | cs => (false, cs)

/-- A sign and decimal digits, of which the first is a zero only if it stands alone. -/
def readWhole? (cs : List Char) : Option (Bool × List Char × List Char) :=
  let (negative, cs) := readSign cs
  match cs with
  | '0' :: rest => some (negative, ['0'], rest)
  | cs => (readDigits? Char.isDigit cs).map fun (digits, rest) => (negative, digits, rest)

/-- A point and digits behind it. -/
def readFraction? : List Char → Option (List Char × List Char)
  | '.' :: rest => readDigits? Char.isDigit rest
  | _ => none

/-- An exponent. -/
def readExponent? : List Char → Option (Int × List Char)
  | c :: rest =>
    if c = 'e' ∨ c = 'E' then
      let (negative, rest) := readSign rest
      (readDigits? Char.isDigit rest).map fun (digits, rest) =>
        (if negative then -(digitsValue digits : Int) else digitsValue digits, rest)
    else none
  | [] => none

/-- A number with a fraction, an exponent or both. -/
def readNumeral? (cs : List Char) : Option (Numeral × List Char) := do
  let (negative, whole, cs) ← readWhole? cs
  match readExponent? cs with
  | some (e, cs) => pure (⟨negative, whole, [], some e⟩, cs)
  | none =>
    let (fraction, cs) ← readFraction? cs
    match readExponent? cs with
    | some (e, cs) => pure (⟨negative, whole, fraction, some e⟩, cs)
    | none => pure (⟨negative, whole, fraction, none⟩, cs)

/-- A floating-point number: the nearest to its numeral, or a word for infinity or NaN. A positive
numeral beyond all numbers is refused. -/
def readFloat? (cs : List Char) : Option (Double × List Char) :=
  match readNumeral? cs with
  | some (n, rest) =>
    let x := n.nearest
    if x = .infinity false then none else some (x, rest)
  | none =>
    match readSign cs with
    | (negative, 'i' :: 'n' :: 'f' :: rest) => some (.infinity negative, rest)
    | (negative, 'n' :: 'a' :: 'n' :: rest) => some (if negative then .neg .nan else .nan, rest)
    | _ => none

def isHexDigit (c : Char) : Bool := (hexDigit? c).isSome

def isOctalDigit (c : Char) : Bool := '0' ≤ c && c ≤ '7'

def isBinaryDigit (c : Char) : Bool := c == '0' || c == '1'

/-- The number that digits spell in a base. -/
def valueIn (base : Nat) (digits : List Char) : Nat :=
  digits.foldl (fun n c => base * n + (hexDigit? c).getD 0) 0

/-- An integer, if it fits 64 bits with a sign. -/
def fitting? (n : Int) (rest : List Char) : Option (Int × List Char) :=
  if -0x8000000000000000 ≤ n ∧ n ≤ 0x7fffffffffffffff then some (n, rest) else none

/-- An integer in base ten, or behind a mark in base sixteen, eight or two. -/
def readInteger? : List Char → Option (Int × List Char)
  | '0' :: 'x' :: rest =>
    (readDigits? isHexDigit rest).bind fun (ds, rest) => fitting? (valueIn 16 ds) rest
  | '0' :: 'o' :: rest =>
    (readDigits? isOctalDigit rest).bind fun (ds, rest) => fitting? (valueIn 8 ds) rest
  | '0' :: 'b' :: rest =>
    (readDigits? isBinaryDigit rest).bind fun (ds, rest) => fitting? (valueIn 2 ds) rest
  | cs =>
    (readWhole? cs).bind fun (negative, ds, rest) =>
      fitting? (if negative then -(digitsValue ds : Int) else digitsValue ds) rest

/-! ## Days and times -/

/-- A number of a fixed count of digits. -/
def readFixed? (count : Nat) (cs : List Char) : Option (Nat × List Char) :=
  let digits := cs.take count
  if digits.length = count ∧ digits.all Char.isDigit then some (digitsValue digits, cs.drop count)
  else none

/-- The same between bounds. -/
def readFixedIn? (low high : Nat) (cs : List Char) : Option (Nat × List Char) :=
  (readFixed? 2 cs).bind fun (n, rest) => if low ≤ n ∧ n ≤ high then some (n, rest) else none

def readMark? (mark : Char) : List Char → Option (List Char)
  | c :: rest => if c = mark then some rest else none
  | [] => none

/-- A day of the calendar. -/
def readDay? (cs : List Char) : Option (List Char) := do
  let (year, cs) ← readFixed? 4 cs
  let cs ← readMark? '-' cs
  let (month, cs) ← readFixedIn? 1 12 cs
  let cs ← readMark? '-' cs
  let (day, cs) ← readFixedIn? 1 31 cs
  if day ≤ (monthLengths year).getD (month - 1) 0 then pure cs else none

/-- A fraction of a second, if there is one. -/
def skipFraction : List Char → List Char
  | '.' :: c :: rest => if c.isDigit then rest.dropWhile Char.isDigit else '.' :: c :: rest
  | cs => cs

/-- A time of day. -/
def readClock? (cs : List Char) : Option (List Char) := do
  let (_, cs) ← readFixedIn? 0 23 cs
  let cs ← readMark? ':' cs
  let (_, cs) ← readFixedIn? 0 59 cs
  let cs ← readMark? ':' cs
  let (_, cs) ← readFixedIn? 0 60 cs
  pure (skipFraction cs)

/-- An offset from universal time. -/
def readOffset? : List Char → Option (List Char)
  | c :: rest =>
    if c = 'Z' ∨ c = 'z' then some rest
    else if c = '+' ∨ c = '-' then do
      let (_, rest) ← readFixedIn? 0 23 rest
      let rest ← readMark? ':' rest
      let (_, rest) ← readFixedIn? 0 59 rest
      pure rest
    else none
  | [] => none

/-- The time and offset behind a day, if they are there. -/
def skipTime : List Char → List Char
  | c :: rest =>
    if c = 'T' ∨ c = 't' ∨ c = ' ' then
      match readClock? rest with
      | some behind => (readOffset? behind).getD behind
      | none => c :: rest
    else c :: rest
  | [] => []

/-- A day, a day with a time, or a time. -/
def readMoment? (cs : List Char) : Option (List Char) :=
  match readDay? cs with
  | some rest => some (skipTime rest)
  | none => readClock? cs

/-! ## Scalars -/

/-- Reads a scalar. -/
def readScalar? (cs : List Char) : Option (Toml × List Char) :=
  match cs with
  | 't' :: 'r' :: 'u' :: 'e' :: rest => some (.bool true, rest)
  | 'f' :: 'a' :: 'l' :: 's' :: 'e' :: rest => some (.bool false, rest)
  | cs =>
    match readString? cs with
    | some (s, rest) => some (.text (String.ofList s), rest)
    | none =>
      match readMoment? cs with
      | some rest => some (.moment, rest)
      | none =>
        match readFloat? cs with
        | some (x, rest) => some (.float x, rest)
        | none => (readInteger? cs).map fun (n, rest) => (.integer n, rest)

end Fixtures.Toml
