/-
The values that a rule may ask of a field: numbers, and patterns for texts.
-/
import Fixtures.Pattern.Usable

namespace Fixtures.FieldValue

/-- Whether a text is a number without its sign. -/
def isNumber (cs : List Char) : Bool :=
  let lower := String.ofList (cs.map Char.toLower)
  let whole := cs.takeWhile Char.isDigit
  let rest := cs.dropWhile Char.isDigit
  let (fraction, rest) := match rest with
    | '.' :: rest => (rest.takeWhile Char.isDigit, rest.dropWhile Char.isDigit)
    | rest => ([], rest)
  let exponent := match rest with
    | [] => true
    | e :: '+' :: digits | e :: '-' :: digits =>
      e.toLower = 'e' && !digits.isEmpty && digits.all Char.isDigit
    | e :: digits => e.toLower = 'e' && !digits.isEmpty && digits.all Char.isDigit
  lower == "inf" || lower == "infinity" || lower == "nan" ||
    (!(whole.isEmpty && fraction.isEmpty) && exponent)

/-- Whether a text is a value. A plus starts a number and no pattern; all other numbers are patterns
as well. -/
def isValue : List Char → Bool
  | '+' :: rest => isNumber rest
  | cs => Pattern.isUsable cs

end Fixtures.FieldValue
