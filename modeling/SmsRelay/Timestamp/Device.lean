-- SUMMARY: Reading the timestamps of the modem tool.
import SmsRelay.Text.Blank
import SmsRelay.Timestamp.Iso
import SmsRelay.Value.Text

/-!
# Device timestamps

Reading the timestamps of the modem tool, `YYYY-MM-DD HH:MM:SS` with one or two
digits in all fields but the year. A text in another form is read as an ISO
timestamp. Values that are not given, and texts that spell no timestamp (a
device without a clock prints zeroed fields), leave the timestamp unknown.
-/

namespace SmsRelay.Timestamp

open Text

namespace Device

/-- Whether an ASCII digit lies in a range. -/
def within (lo hi c : Char) : Bool := lo ≤ c && c ≤ hi

/-- The number that two digits spell. -/
def pair (a b : Char) : Option Nat := do
  return 10 * (← digit? a) + (← digit? b)

/-- A field of two digits that satisfy `two`, or else of one that satisfies `one`. -/
def field? (two : Char → Char → Bool) (one : Char → Bool) : List Char → Option (Nat × List Char)
  | a :: b :: rest =>
    if two a b then (pair a b).map fun n => (n, rest)
    else if one a then (digit? a).map fun n => (n, b :: rest)
    else none
  | [a] => if one a then (digit? a).map fun n => (n, []) else none
  | [] => none

/-- Four digits. -/
def year? : List Char → Option (Nat × List Char)
  | a :: b :: c :: d :: rest => do
    return (100 * (← pair a b) + (← pair c d), rest)
  | _ => none

/-- 1 to 12. -/
def month? : List Char → Option (Nat × List Char) :=
  field? (fun a b => (a == '1' && within '0' '2' b) || (a == '0' && within '1' '9' b)) (within '1' '9')

/-- 1 to 31; a blank may stand for the first of two digits. -/
def day? (cs : List Char) : Option (Nat × List Char) :=
  match cs with
  | ' ' :: b :: rest => if within '1' '9' b then (digit? b).map fun n => (n, rest) else none
  | cs =>
    field? (fun a b => (a == '3' && within '0' '1' b) || (within '1' '2' a && isDigit b) ||
      (a == '0' && within '1' '9' b)) (within '1' '9') cs

/-- 0 to 23. -/
def hour? : List Char → Option (Nat × List Char) :=
  field? (fun a b => (a == '2' && within '0' '3' b) || (within '0' '1' a && isDigit b)) isDigit

/-- 0 to 59. -/
def minute? : List Char → Option (Nat × List Char) :=
  field? (fun a b => within '0' '5' a && isDigit b) isDigit

/-- 0 to 61. -/
def second? : List Char → Option (Nat × List Char) :=
  field? (fun a b => (a == '6' && within '0' '1' b) || (within '0' '5' a && isDigit b)) isDigit

/-- One given character. -/
def mark? (c : Char) : List Char → Option (List Char)
  | x :: rest => if x = c then some rest else none
  | [] => none

/-- One or more blanks. -/
def blanks? : List Char → Option (List Char)
  | c :: rest => if isBlank c then some (rest.dropWhile isBlank) else none
  | [] => none

/-- The timestamp that a text spells in the form of the device. -/
def read (cs : List Char) : Option Timestamp := do
  let (year, cs) ← year? cs
  let (month, cs) ← month? (← mark? '-' cs)
  let (day, cs) ← day? (← mark? '-' cs)
  let (hour, cs) ← hour? (← blanks? cs)
  let (minute, cs) ← minute? (← mark? ':' cs)
  let (second, cs) ← second? (← mark? ':' cs)
  if !cs.isEmpty then none
  return ⟨← Date.of? year month day, ← Time.of? hour minute second 0, none⟩

end Device

/-- What a timestamp field says. -/
inductive Reading where
  | absent
  | known (t : Timestamp)
  | unreadable (text : String)
  deriving DecidableEq

def Reading.toOption : Reading → Option Timestamp
  | known t => some t
  | _ => none

/-- A text that was left out because it spells no timestamp. -/
def Reading.ignored? : Reading → Option String
  | unreadable text => some text
  | _ => none

/-- The timestamp that a text spells, in the form of the device or in the stored form. -/
def read? (cs : List Char) : Option Timestamp := Device.read cs <|> Iso.read cs

/-- The reading of a timestamp field. -/
def reading (v : Value) : Reading :=
  if v.isGiven then
    let text := strip v.plain
    match read? text.toList with
    | some t => .known t
    | none => .unreadable text
  else .absent

/-- The timestamp that a field gives. -/
def ofValue? (v : Value) : Option Timestamp := (reading v).toOption

end SmsRelay.Timestamp
