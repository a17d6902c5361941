-- SUMMARY: Timestamps and their text form.
import SmsRelay.Calendar

/-!
# Timestamps

A date, a time of day and, where it is known, the offset from universal time;
and the text form in which timestamps are stored and shown. That form leaves
out a fraction of zero, and the seconds of an offset of whole minutes.
-/

namespace SmsRelay

structure Timestamp where
  date : Date
  time : Time
  offset : Option Offset := none
  deriving DecidableEq

/-- The last `width` decimal digits of `n`. -/
def decimalDigits (width n : Nat) : List Char :=
  match width with
  | 0 => []
  | w + 1 => decimalDigits w (n / 10) ++ [Nat.digitChar (n % 10)]

@[simp] theorem decimalDigits_zero (n : Nat) : decimalDigits 0 n = [] := rfl

@[simp] theorem decimalDigits_succ (w n : Nat) :
    decimalDigits (w + 1) n = decimalDigits w (n / 10) ++ [Nat.digitChar (n % 10)] := rfl

theorem length_decimalDigits (width n : Nat) : (decimalDigits width n).length = width := by
  induction width generalizing n with
  | zero => rfl
  | succ w ih => simp [ih]

/-- `YYYY-MM-DD`. -/
def Date.isoChars (d : Date) : List Char :=
  decimalDigits 4 d.year ++ '-' :: (decimalDigits 2 d.month ++ '-' :: decimalDigits 2 d.day)

/-- A fraction of a second: a point and six digits, or nothing. -/
def fractionChars (micro : Nat) : List Char :=
  if micro = 0 then [] else '.' :: decimalDigits 6 micro

/-- `HH:MM:SS`, and a fraction of a second unless it is zero. -/
def Time.isoChars (t : Time) : List Char :=
  decimalDigits 2 t.hour ++ ':' :: (decimalDigits 2 t.minute ++ ':' :: (decimalDigits 2 t.second ++
    fractionChars t.micro))

/-- A sign and `HH:MM`, then `:SS` unless seconds and fraction are zero. -/
def Offset.isoChars (o : Offset) : List Char :=
  let seconds := o.micros / 1000000
  (if o.behind then '-' else '+') :: (decimalDigits 2 (seconds / 3600) ++ ':' ::
    (decimalDigits 2 (seconds / 60 % 60) ++
      if seconds % 60 = 0 ∧ o.micros % 1000000 = 0 then []
      else ':' :: (decimalDigits 2 (seconds % 60) ++ fractionChars (o.micros % 1000000))))

namespace Timestamp

/-- The stored form of a timestamp: `YYYY-MM-DDTHH:MM:SS`, fraction and offset. -/
def isoChars (t : Timestamp) : List Char :=
  t.date.isoChars ++ 'T' :: (t.time.isoChars ++ (t.offset.elim [] Offset.isoChars))

/-- The stored form of a timestamp as text. -/
def iso (t : Timestamp) : String := String.ofList t.isoChars

/-- The timestamp of a moment in universal time, so many microseconds after the start of 1970. -/
def ofEpoch? (micros : Nat) : Option Timestamp := do
  let seconds := micros / 1000000
  let date ← Date.ofDayNumber? (719162 + seconds / 86400)
  let time ← Time.of? (seconds / 3600 % 24) (seconds / 60 % 60) (seconds % 60) (micros % 1000000)
  return ⟨date, time, some Offset.zero⟩

@[simp] theorem toList_iso (t : Timestamp) : t.iso.toList = t.isoChars := by simp [iso]

end Timestamp

end SmsRelay
