-- SUMMARY: Values converted to numbers, and compared with them.
import SmsRelay.Fault
import SmsRelay.Value

/-!
# Values as numbers

The conversions of values to integers and to reals, and the comparison of a
value with an integer. Truth values count as 0 and 1, a float loses its
fraction on the way to an integer, a text is read as a numeral.
-/

namespace SmsRelay.Value

/-- The integer that a float stands for, without its fraction. -/
def integerOfFloat (x : Float) : Except Fault Int :=
  match Number.parts x with
  | .nan => .error .integerOfNan
  | .infinite _ => .error .integerOfInfinity
  | .finite negative m e => .ok (Number.truncate negative m e)

/-- The value as an integer. -/
def toInteger : Value → Except Fault Int
  | .bool b => .ok (if b then 1 else 0)
  | .int n => .ok n
  | .float x => integerOfFloat x
  | .text s => (Number.readInteger s).mapError fun
    | .malformed => .badInteger s
    | .tooLong digits => .longInteger digits
  | v => .error (.notInteger v.kind)

/-- The `Float` nearest to an integer; infinite when the integer is too large. -/
def floatOfInteger (n : Int) : Float := Number.nearest (n < 0) ⟨n.natAbs, 1⟩

/-- The value as a real number. -/
def toReal : Value → Except Fault Float
  | .bool b => .ok (if b then 1.0 else 0.0)
  | .int n =>
    match Number.parts (floatOfInteger n) with
    | .finite .. => .ok (floatOfInteger n)
    | _ => .error .realTooLarge
  | .float x => .ok x
  | .text s =>
    match Number.readReal s with
    | some x => .ok x
    | none => .error (.badReal s)
  | v => .error (.notReal v.kind)

/-- Whether the value is a number that is not above zero. A float that is no number is not. -/
def isAtMostZero : Value → Except Fault Bool
  | .bool b => .ok !b
  | .int n => .ok (n ≤ 0)
  | .float x => .ok (x ≤ 0.0)
  | v => .error (.incomparable "<=" v.kind "int")

/-- Whether the value is a number greater than one. -/
def exceedsOne : Value → Except Fault Bool
  | .bool _ => .ok false
  | .int n => .ok (1 < n)
  | .float x => .ok (1.0 < x)
  | v => .error (.incomparable ">" v.kind "int")

@[simp] theorem toInteger_int (n : Int) : toInteger (.int n) = .ok n := rfl

@[simp] theorem toInteger_bool (b : Bool) : toInteger (.bool b) = .ok (if b then 1 else 0) := rfl

end SmsRelay.Value
