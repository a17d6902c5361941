-- SUMMARY: Floats taken apart into sign, mantissa and exponent.
/-!
# Binary fractions

A `Float` taken apart into a sign, a whole number and a power of two, so that
its text and its conversions are exact arithmetic on `Nat` and `Int`.
-/

namespace SmsRelay.Number

/-- What a `Float` stands for: no number, an infinity, or `± mantissa * 2 ^ exponent`. -/
inductive Parts where
  | nan
  | infinite (negative : Bool)
  | finite (negative : Bool) (mantissa : Nat) (exponent : Int)
  deriving DecidableEq, Repr

/-- The weight of the sign among the 64 bits of a `Float`. -/
def signBit : Nat := 9223372036854775808

/-- The least mantissa of 53 bits. Its bit is left out of the 64. -/
def leadBit : Nat := 4503599627370496

/-- The parts of a `Float`, read from its 64 bits. -/
def parts (x : Float) : Parts :=
  let bits := x.toBits.toNat
  let negative := bits / signBit = 1
  let e : Nat := bits / leadBit % 2048
  let f : Nat := bits % leadBit
  if e = 2047 then if f = 0 then .infinite negative else .nan
  else if e = 0 then .finite negative f (-1074)
  else .finite negative (f + leadBit) ((e : Int) - 1075)

/-- A positive number `num / den`. -/
structure Ratio where
  num : Nat
  den : Nat
  deriving DecidableEq, Repr

/-- `n * b ^ e` as a ratio. -/
def Ratio.scaled (n b : Nat) : Int → Ratio
  | .ofNat e => ⟨n * Nat.pow b e, 1⟩
  | .negSucc e => ⟨n, Nat.pow b (e + 1)⟩

/-- The product with a power of a base. -/
def Ratio.scale (r : Ratio) (b : Nat) : Int → Ratio
  | .ofNat e => ⟨r.num * Nat.pow b e, r.den⟩
  | .negSucc e => ⟨r.num, r.den * Nat.pow b (e + 1)⟩

/-- The whole part. -/
def Ratio.floor (r : Ratio) : Nat := r.num / r.den

/-- Comparison by cross multiplication. -/
def Ratio.lt (a b : Ratio) : Bool := a.num * b.den < b.num * a.den

def Ratio.le (a b : Ratio) : Bool := a.num * b.den ≤ b.num * a.den

/-- The number of decimal digits of `n`; zero has one. -/
def digitCount (n : Nat) : Nat := (Nat.toDigits 10 n).length

/-- The `k` with `10 ^ (k - 1) ≤ r < 10 ^ k`, for a positive `r`. -/
def Ratio.magnitude (r : Ratio) : Int :=
  if r.den ≤ r.num then digitCount (r.num / r.den)
  else
    let j := digitCount (r.den / r.num) - 1
    if r.num * Nat.pow 10 j < r.den then -(j : Int) else 1 - (j : Int)

/-- The whole number nearest to zero's side: the fraction is cut off. -/
def truncate (negative : Bool) (mantissa : Nat) (exponent : Int) : Int :=
  let n : Int := (Ratio.scaled mantissa 2 exponent).floor
  if negative then -n else n

@[simp] theorem truncate_zero (negative : Bool) (exponent : Int) :
    truncate negative 0 exponent = 0 := by
  cases exponent <;> cases negative <;> simp [truncate, Ratio.scaled, Ratio.floor]

end SmsRelay.Number
