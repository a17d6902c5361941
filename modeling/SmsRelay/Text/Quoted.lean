-- SUMMARY: Quoted texts, as reports show them.
import SmsRelay.Text.Lone
import SmsRelay.Text.Printable

/-!
# Quoted text

How a piece of text is shown inside a report: between quotes, with a backslash
before a backslash or a closing quote, short escapes for the three common
controls, and a number for every other character without a visible form and for
half of a surrogate pair. The quote is single unless the text has single quotes
and no double ones.
-/

namespace SmsRelay.Text

/-- The last `width` hexadecimal digits of `n`, in lower case. -/
def hex (width n : Nat) : List Char :=
  match width with
  | 0 => []
  | w + 1 => hex w (n / 16) ++ [Nat.digitChar (n % 16)]

@[simp] theorem length_hex (width n : Nat) : (hex width n).length = width := by
  induction width generalizing n with
  | zero => rfl
  | succ w ih => simp [hex, ih]

/-- A code point by number, in the shortest of the three widths that holds it. -/
def numbered (code : Nat) : List Char :=
  if code < 0x100 then ['\\', 'x'] ++ hex 2 code
  else if code < 0x10000 then ['\\', 'u'] ++ hex 4 code
  else ['\\', 'U'] ++ hex 8 code

/-- One character of text between quotes of the kind `q`. -/
def quoteChar (q c : Char) : List Char :=
  if c = q ∨ c = '\\' then ['\\', c]
  else if c = '\n' then ['\\', 'n']
  else if c = '\r' then ['\\', 'r']
  else if c = '\t' then ['\\', 't']
  else if isPrintable c then [c]
  else numbered c.toNat

/-- One letter of text between quotes of the kind `q`. -/
def quoteLetter (q : Char) : Letter → List Char
  | .char c => quoteChar q c
  | .lone code => numbered code

/-- The quote that a text is shown in. -/
def quoteMark (cs : List Char) : Char :=
  if cs.contains '\'' && !cs.contains '"' then '"' else '\''

/-- Text between quotes. -/
def quote (s : String) : String :=
  let cs := s.toList
  let q := quoteMark cs
  String.ofList (q :: (letters cs).flatMap (quoteLetter q) ++ [q])

end SmsRelay.Text
