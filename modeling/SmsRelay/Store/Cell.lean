-- SUMMARY: What the columns of the store hold, and what they make of the values that are put into them.
import SmsRelay.Number.Layout
import SmsRelay.Number.Real
import SmsRelay.Value.Number

/-!
# Table cells

What the columns of the store hold: nothing, an integer of 64 bits, a real
number or a text. A column for integers turns numbers and numerals into
integers where nothing is lost by it, a column for texts turns numbers into
texts. Everything else stays as it is. Half of a surrogate pair has no place in
a text of a table.
-/

namespace SmsRelay.Store

inductive Cell where
  | null
  | int (n : Int)
  | real (x : Float)
  | text (s : String)
  deriving BEq, Inhabited

namespace Cell

/-- The least integer of 64 bits. -/
def least : Int := -9223372036854775808

/-- The greatest integer of 64 bits. -/
def greatest : Int := 9223372036854775807

/-- Integers that fit into 64 bits. -/
def fits (n : Int) : Bool := least ≤ n && n ≤ greatest

/-- A real number as a cell. What is no number is nothing. -/
def ofReal (x : Float) : Cell := if x.isNaN then .null else .real x

/-- A text handed over to a statement. -/
def ofText (s : String) : Except Fault Cell :=
  match Text.firstLone? s with
  | none => .ok (.text s)
  | some (place, codes) => .error (.loneSurrogates place codes)

/-- A value handed over at a position of a statement. -/
def ofValue (position : Nat) : Value → Except Fault Cell
  | .null => .ok .null
  | .bool b => .ok (.int (if b then 1 else 0))
  | .int n => if fits n then .ok (.int n) else .error .wideInteger
  | .float x => .ok (ofReal x)
  | .text s => ofText s
  | v => .error (.unbindable position v.kind)

def toValue : Cell → Value
  | .null => .null
  | .int n => .int n
  | .real x => .float x
  | .text s => .text s

/-- A real number as an integer, if it is one well inside the 64 bits. -/
def integral? (x : Float) : Option Int :=
  match Number.parts x with
  | .finite negative m e =>
    let n := Number.truncate negative m e
    let r := Number.Ratio.scaled m 2 e
    if r.num % r.den = 0 ∧ least < n ∧ n ≤ greatest then some n else none
  | _ => none

/-- A number in a column for integers. -/
def integerOfReal (x : Float) : Cell := ((integral? x).map int).getD (real x)

/-- The blanks that may surround a numeral. -/
def isBlank (c : Char) : Bool := c == ' ' || ('\t' ≤ c && c ≤ '\r')

/-- The number that a text spells, if it spells one. -/
def numeral? (s : String) : Option Cell := do
  let (negative, body) := Number.splitSign (Text.trimBoth isBlank s.toList)
  let (mantissa, exponent) ← Number.decimal? body
  let n := Number.signed negative mantissa
  if body.all Char.isDigit && fits n then some (.int n)
  else some (integerOfReal (Number.ofDecimal negative mantissa exponent))

/-- A cell in a column for integers. -/
def inIntegerColumn : Cell → Cell
  | .real x => integerOfReal x
  | .text s => (numeral? s).getD (.text s)
  | c => c

/-- The text of a cell in a column for texts. -/
def inTextColumn : Cell → Option String
  | .null => none
  | .int n => some (toString n)
  | .real x => some (Number.Layout.column.text x)
  | .text s => some s

theorem ofText_of_isWhole {s : String} (h : Text.isWhole s = true) : ofText s = .ok (.text s) := by
  rw [ofText, Text.firstLone?_eq_none_iff.mpr h]

theorem ofText_eq_ok {s : String} {c : Cell} : ofText s = .ok c ↔ Text.isWhole s = true ∧ c = .text s := by
  rw [← Text.firstLone?_eq_none_iff, ofText]
  cases Text.firstLone? s <;> simp [eq_comm]

theorem ofText_of_not_isWhole {s : String} (h : Text.isWhole s = false) :
    ∃ place codes, ofText s = .error (.loneSurrogates place codes) := by
  unfold ofText
  split
  · rename_i hs
    rw [Text.firstLone?_eq_none_iff.mp hs] at h
    cases h
  · exact ⟨_, _, rfl⟩

@[simp] theorem ofValue_text (position : Nat) (s : String) : ofValue position (.text s) = ofText s := rfl

@[simp] theorem ofValue_null (position : Nat) : ofValue position .null = .ok .null := rfl

@[simp] theorem inIntegerColumn_int (n : Int) : inIntegerColumn (.int n) = .int n := rfl

@[simp] theorem inTextColumn_text (s : String) : inTextColumn (.text s) = some s := rfl

theorem ofValue_int {position : Nat} {n : Int} (h : fits n = true) :
    ofValue position (.int n) = .ok (.int n) := by
  simp [ofValue, h]

-- ---------------------------------------------------------------------------
-- Order and equality
-- ---------------------------------------------------------------------------

/-- Whether an integer is at most a real number, exactly. -/
def intLeReal (n : Int) (x : Float) : Bool :=
  match Number.parts x with
  | .nan => false
  | .infinite negative => !negative
  | .finite negative m e =>
    let r := Number.Ratio.scaled m 2 e
    n * r.den ≤ Number.signed negative r.num

/-- Whether a real number is at most an integer, exactly. -/
def realLeInt (x : Float) (n : Int) : Bool :=
  match Number.parts x with
  | .nan => false
  | .infinite negative => negative
  | .finite negative m e =>
    let r := Number.Ratio.scaled m 2 e
    Number.signed negative r.num ≤ n * r.den

/-- The order of cells in a column: nothing before numbers, numbers before texts. -/
def le : Cell → Cell → Bool
  | .null, _ => true
  | _, .null => false
  | .int a, .int b => a ≤ b
  | .int a, .real b => intLeReal a b
  | .real a, .int b => realLeInt a b
  | .real a, .real b => a ≤ b
  | .text a, .text b => a ≤ b
  | .text _, _ => false
  | _, .text _ => true

/-- Whether two cells hold the same; nothing is not the same as anything. -/
def same : Cell → Cell → Bool
  | .null, _ => false
  | _, .null => false
  | a, b => le a b && le b a

@[simp] theorem same_int (a b : Int) : same (.int a) (.int b) = decide (a = b) := by
  simp only [same, le]
  by_cases h : a = b
  · simp [h]
  · have : ¬(a ≤ b ∧ b ≤ a) := by omega
    simp_all

end Cell

end SmsRelay.Store
