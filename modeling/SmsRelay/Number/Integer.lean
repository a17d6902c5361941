-- SUMMARY: Reading integer numerals in digits of any script.
import SmsRelay.Text.Blank
import SmsRelay.Text.Digit

/-!
# Integer numerals

Reading whole numbers: blanks around the numeral, a sign, decimal digits of any
script, and single underscores between digits. A numeral of more than 4300
digits is refused for its length.
-/

namespace SmsRelay.Number

open Text

/-- Why a text is no integer. -/
inductive IntegerDefect where
  | malformed
  | tooLong (digits : Nat)
  deriving DecidableEq, Repr

/-- The most digits an integer may be read from. -/
def digitLimit : Nat := 4300

/-- The values of a run of digits, single underscores skipped, and the text after it. -/
def scanDigits : List Char → Option (List Nat × List Char)
  | [] => none
  | c :: cs =>
    match digit? c, cs with
    | none, _ => none
    | some d, [] => some ([d], [])
    | some d, '_' :: cs' => (scanDigits cs').map fun r => (d :: r.1, r.2)
    | some d, c' :: cs' =>
      if isDigit c' then (scanDigits (c' :: cs')).map fun r => (d :: r.1, r.2) else some ([d], c' :: cs')

/-- Split a sign off: whether it is a minus, and the text after it. -/
def splitSign : List Char → Bool × List Char
  | '-' :: cs => (true, cs)
  | '+' :: cs => (false, cs)
  | cs => (false, cs)

/-- Attach a sign to a natural number. -/
def signed (negative : Bool) (n : Nat) : Int := if negative then -(n : Int) else n

/-- The integer that a text spells. -/
def readInteger (s : String) : Except IntegerDefect Int :=
  let (negative, body) := splitSign (trimBoth isNumeralBlank s.toList)
  match scanDigits body with
  | none => .error .malformed
  | some (ds, rest) =>
    if digitLimit < ds.length then .error (.tooLong ds.length)
    else if rest.isEmpty then .ok (signed negative (ofDigits ds))
    else .error .malformed

end SmsRelay.Number
