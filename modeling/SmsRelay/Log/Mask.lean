-- SUMMARY: Masking of phone numbers in a line of the log.
import SmsRelay.Text.Digit

/-!
# Masking of numbers

Phone numbers are kept out of the log: a run of six digits or more, with a plus
sign before it if there is one, is cut down to its last four digits behind
three asterisks.
-/

namespace SmsRelay.Log

open Text

/-- The fewest digits that count as a phone number. -/
def numberLength : Nat := 6

/-- The last four of a row of digits. -/
def lastFour (digits : List Char) : List Char := digits.drop (digits.length - 4)

/-- What stands in the log for a number. -/
def maskedNumber (digits : List Char) : List Char := ['*', '*', '*'] ++ lastFour digits

/-- A text with its phone numbers masked. -/
def mask : List Char → List Char
  | [] => []
  | c :: cs =>
    let digits := if c = '+' then cs.takeWhile isDigit else (c :: cs).takeWhile isDigit
    if numberLength ≤ digits.length then maskedNumber digits ++ mask (cs.dropWhile isDigit)
    else c :: mask cs
termination_by cs => cs.length
decreasing_by
  · simp only [List.length_cons]
    have := (List.dropWhile_suffix (l := cs) isDigit).length_le
    omega
  · simp

@[simp] theorem mask_nil : mask [] = [] := by simp [mask]

/-- A text with its phone numbers masked, or the text itself when masking is off. -/
def maskIf (enabled : Bool) (s : String) : String :=
  if enabled then String.ofList (mask s.toList) else s

@[simp] theorem maskIf_false (s : String) : maskIf false s = s := rfl

end SmsRelay.Log
