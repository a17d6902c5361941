-- SUMMARY: The shortest decimal that singles out a float, and rounding to a number of digits.
import SmsRelay.Number.Binary

/-!
# Shortest decimals

The fewest decimal digits that single out a binary fraction among its
neighbours, and the rounding of a fraction to a given number of digits. Both
are exact: a decimal stands for a fraction when it lies in the interval of
reals that round to it, and the ends belong to that interval when the mantissa
is even.
-/

namespace SmsRelay.Number

/-- The decimal `0.d₁d₂… * 10 ^ point`, its digits given as a whole number. -/
structure Decimal where
  digits : List Char
  point : Int
  deriving DecidableEq, Repr

/-- The decimal `n * 10 ^ e`, without trailing zeros. -/
def Decimal.ofScaled (n : Nat) (e : Int) : Decimal :=
  let ds := Nat.toDigits 10 n
  ⟨((ds.reverse.dropWhile (· == '0')).reverse), ds.length + e⟩

/-- The reals that round to `mantissa * 2 ^ exponent`, in quarters of `2 ^ exponent`: the lower
neighbour is nearer when the mantissa is the least of its binade. -/
structure Interval where
  low : Ratio
  high : Ratio
  closed : Bool

def Interval.around (mantissa : Nat) (exponent : Int) : Interval where
  low :=
    let step := if mantissa = leadBit ∧ exponent ≠ -1074 then 1 else 2
    Ratio.scaled (4 * mantissa - step) 2 (exponent - 2)
  high := Ratio.scaled (4 * mantissa + 2) 2 (exponent - 2)
  closed := mantissa % 2 = 0

def Interval.contains (i : Interval) (r : Ratio) : Bool :=
  if i.closed then i.low.le r && r.le i.high else i.low.lt r && r.lt i.high

/-- On the grid of multiples of `10 ^ e`, the neighbour of `r` that lies in the interval; the
nearer of two, the even one when they are equally near. -/
def Interval.onGrid? (i : Interval) (r : Ratio) (e : Int) : Option Nat :=
  let s := r.scale 10 (-e)
  let d := s.floor
  let below := i.contains (Ratio.scaled d 10 e)
  let above := i.contains (Ratio.scaled (d + 1) 10 e)
  match below, above with
  | false, false => none
  | true, false => some d
  | false, true => some (d + 1)
  | true, true =>
    let rest := 2 * (s.num % s.den)
    if rest < s.den ∨ (rest = s.den ∧ d % 2 = 0) then some d else some (d + 1)

/-- The shortest decimal that stands for the positive number `mantissa * 2 ^ exponent`; seventeen
digits always do. -/
def shortest (mantissa : Nat) (exponent : Int) : Decimal :=
  let r := Ratio.scaled mantissa 2 exponent
  let i := Interval.around mantissa exponent
  let k := r.magnitude
  let grid? (n : Nat) : Option Decimal :=
    (i.onGrid? r (k - n)).map (Decimal.ofScaled · (k - n))
  ((List.range 17).findSome? fun n => grid? (n + 1)).getD (Decimal.ofScaled (r.scale 10 (17 - k)).floor (k - 17))

/-- The positive number `mantissa * 2 ^ exponent` to `n` digits, a half going up. -/
def rounded (n : Nat) (mantissa : Nat) (exponent : Int) : Decimal :=
  let r := Ratio.scaled mantissa 2 exponent
  let e := r.magnitude - n
  let s := r.scale 10 (-e)
  Decimal.ofScaled ((2 * s.num + s.den) / (2 * s.den)) e

end SmsRelay.Number
