-- SUMMARY: Reading numerals with fraction and exponent, and the names of infinity and of no number.
import SmsRelay.Number.Integer
import SmsRelay.Number.Nearest

/-!
# Real numerals

Reading numbers that may have a fraction and an exponent, and the names of
infinity and of no number. Blanks, digits of any script and single underscores
are as in integer numerals. A number too large for a `Float` becomes an
infinity, one too small becomes zero.
-/

namespace SmsRelay.Number

open Text

/-- The `Float` nearest to `± mantissa * 10 ^ exponent`. Exponents far outside the range of
`Float` are settled without computing the power. -/
def ofDecimal (negative : Bool) (mantissa : Nat) (exponent : Int) : Float :=
  let size : Int := digitCount mantissa + exponent
  if mantissa = 0 ∨ size < -400 then nearest negative ⟨0, 1⟩
  else if 400 < size then nearest negative ⟨Nat.pow 2 1024, 1⟩
  else nearest negative (Ratio.scaled mantissa 10 exponent)

/-- ASCII digits off the front of a text, and the text after them. -/
def spanDigits (cs : List Char) : List Nat × List Char :=
  match cs with
  | [] => ([], [])
  | c :: rest =>
    match asciiDigit? c with
    | none => ([], c :: rest)
    | some d => let (ds, r) := spanDigits rest; (d :: ds, r)

/-- The digits after a decimal point, if there is one. -/
def spanFraction : List Char → List Nat × List Char
  | '.' :: cs => spanDigits cs
  | cs => ([], cs)

/-- An exponent, if the text is one; the empty text stands for exponent zero. -/
def exponent? : List Char → Option Int
  | [] => some 0
  | c :: cs =>
    if c = 'e' ∨ c = 'E' then
      let (negative, body) := splitSign cs
      match spanDigits body with
      | ([], _) => none
      | (ds, []) => some (signed negative (ofDigits ds))
      | _ => none
    else none

/-- An unsigned numeral in ASCII: its mantissa as a whole number, and its exponent. -/
def decimal? (cs : List Char) : Option (Nat × Int) :=
  let (whole, afterWhole) := spanDigits cs
  let (fraction, afterFraction) := spanFraction afterWhole
  if whole.isEmpty && fraction.isEmpty then none
  else (exponent? afterFraction).map fun e => (ofDigits (whole ++ fraction), e - fraction.length)

/-- Digits of any script in ASCII, and underscores between two digits left out. -/
def plainNumeral? (cs : List Char) : Option (List Char) :=
  let ascii := cs.map fun c => ((digit? c).map Nat.digitChar).getD c
  go false ascii
where
  /-- `afterDigit` says whether the character before is a digit. -/
  go (afterDigit : Bool) : List Char → Option (List Char)
    | [] => some []
    | '_' :: cs =>
      match cs with
      | c :: rest =>
        if afterDigit && (asciiDigit? c).isSome then (go true rest).map (c :: ·) else none
      | [] => none
    | c :: cs => (go (asciiDigit? c).isSome cs).map (c :: ·)

/-- The number that a text spells. -/
def readReal (s : String) : Option Float := do
  let cs ← plainNumeral? (trimBoth isNumeralBlank s.toList)
  let (negative, body) := splitSign cs
  let word := String.ofList (body.map Char.toLower)
  if word = "inf" ∨ word = "infinity" then
    some (if negative then -1.0 / 0.0 else 1.0 / 0.0)
  else if word = "nan" then some (0.0 / 0.0)
  else
    let (mantissa, exponent) ← decimal? body
    some (ofDecimal negative mantissa exponent)

end SmsRelay.Number
