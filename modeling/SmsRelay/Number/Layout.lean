-- SUMMARY: Positional and exponential layout of decimal digits.
import SmsRelay.Number.Shortest

/-!
# Number layout

How the decimal digits of a number are laid out as text: positionally or with
an exponent, and what is written for infinities. A report shows numbers in
`Layout.report`; a text column of the store keeps them in `Layout.column`.
-/

namespace SmsRelay.Number

/-- The choices that turn a number into text. -/
structure Layout where
  /-- The digits of a positive number. -/
  decimal : Nat → Int → Decimal
  /-- Decimal points up to here are written positionally. -/
  lastPoint : Int
  /-- A whole mantissa before an exponent keeps its `.0`. -/
  wholeMantissa : Bool
  /-- A negative zero keeps its sign. -/
  signedZero : Bool
  infinity : String

/-- The shortest digits that read back, positional below `10 ^ 16`. -/
def Layout.report : Layout := ⟨shortest, 16, false, true, "inf"⟩

/-- Fifteen digits, positional below `10 ^ 15`. -/
def Layout.column : Layout := ⟨rounded 15, 15, true, false, "Inf"⟩

/-- An exponent: its sign and at least two digits. -/
def exponentText (e : Int) : List Char :=
  let ds := Nat.toDigits 10 e.natAbs
  (if e < 0 then '-' else '+') :: (if ds.length < 2 then '0' :: ds else ds)

/-- The digits of a decimal with its point among, before or after them. -/
def positionalText (d : Decimal) : List Char :=
  match d.point with
  | .ofNat p =>
    if p = 0 then '0' :: '.' :: d.digits
    else if d.digits.length ≤ p then d.digits ++ List.replicate (p - d.digits.length) '0' ++ ['.', '0']
    else d.digits.take p ++ '.' :: d.digits.drop p
  | .negSucc p => '0' :: '.' :: (List.replicate (p + 1) '0' ++ d.digits)

/-- The digits of a decimal with one of them before the point, and an exponent. -/
def Layout.scientificText (l : Layout) (d : Decimal) : List Char :=
  let mantissa := match d.digits with
    | [] => []
    | [c] => if l.wholeMantissa then [c, '.', '0'] else [c]
    | c :: cs => c :: '.' :: cs
  mantissa ++ 'e' :: exponentText (d.point - 1)

/-- The text of a number. -/
def Layout.text (l : Layout) (x : Float) : String :=
  match parts x with
  | .nan => "nan"
  | .infinite negative => if negative then "-" ++ l.infinity else l.infinity
  | .finite negative 0 _ => if negative && l.signedZero then "-0.0" else "0.0"
  | .finite negative m e =>
    let d := l.decimal m e
    let body := if -4 < d.point ∧ d.point ≤ l.lastPoint then positionalText d else l.scientificText d
    String.ofList (if negative then '-' :: body else body)

end SmsRelay.Number
