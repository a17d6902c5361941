-- SUMMARY: The float nearest to an exact ratio, ties to even.
import SmsRelay.Number.Binary

/-!
# Nearest binary fractions

The `Float` nearest to an exact ratio. A ratio halfway between two neighbours
goes to the one with the even mantissa, one beyond the largest goes to
infinity.
-/

namespace SmsRelay.Number

/-- The exponent at which the mantissa of `r` has 53 bits, or the least exponent there is. -/
def Ratio.exponent (r : Ratio) : Int :=
  let e : Int := (r.num.log2 : Int) - r.den.log2 - 52
  let e := if (r.scale 2 (-e)).floor < leadBit then e - 1 else e
  max e (-1074)

/-- The whole number nearest to a ratio, the even one of two. -/
def Ratio.round (r : Ratio) : Nat :=
  let n := r.num / r.den
  let rest := 2 * (r.num % r.den)
  if rest < r.den ∨ (rest = r.den ∧ n % 2 = 0) then n else n + 1

/-- The bits of the nearest `Float`. A mantissa that rounds up to the next power of two carries
into the exponent, which is the right place for it. -/
def Ratio.bits (r : Ratio) : Nat :=
  let e := r.exponent
  let m := (r.scale 2 (-e)).round
  if m < leadBit then m
  else
    let b := (e + 1074).toNat * leadBit + m
    if b < 2047 * leadBit then b else 2047 * leadBit

/-- The `Float` nearest to a ratio with a sign. -/
def nearest (negative : Bool) (r : Ratio) : Float :=
  Float.ofBits (UInt64.ofNat ((if r.num = 0 then 0 else r.bits) + if negative then signBit else 0))

end SmsRelay.Number
