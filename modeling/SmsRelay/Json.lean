-- SUMMARY: Reading JSON text as a value, with the position of the first problem.
import SmsRelay.Number.Real
import SmsRelay.Text.Lone
import SmsRelay.Value

/-!
# Reading JSON

The text that the modem tool prints and the configuration file holds, read as a
value. Beyond the standard grammar the three names for numbers that are not
finite are read; of two fields with one name the later value stands in the
earlier place. Half of a surrogate pair may stand alone in a string. A text that
is no JSON is refused with the problem and the character at which it shows.
-/

namespace SmsRelay.Json

/-- What can be wrong with a text. -/
inductive Problem where
  | byteOrderMark
  | expectingValue
  | expectingName
  | expectingColon
  | expectingComma
  | extraData
  | unterminatedString
  | controlCharacter
  | badEscape
  | badCodeEscape
  deriving DecidableEq, Repr

def Problem.text : Problem → String
  | .byteOrderMark => "Unexpected UTF-8 BOM (decode using utf-8-sig)"
  | .expectingValue => "Expecting value"
  | .expectingName => "Expecting property name enclosed in double quotes"
  | .expectingColon => "Expecting ':' delimiter"
  | .expectingComma => "Expecting ',' delimiter"
  | .extraData => "Extra data"
  | .unterminatedString => "Unterminated string starting at"
  | .controlCharacter => "Invalid control character at"
  | .badEscape => "Invalid \\escape"
  | .badCodeEscape => "Invalid \\uXXXX escape"

/-- A problem, and how much of the text remains where it shows. -/
inductive Defect where
  | problem (p : Problem) (remaining : Nat)
  | longInteger (digits : Nat)
  deriving DecidableEq, Repr

/-- A problem with its place: lines and columns count from one, the offset from zero. -/
inductive Fault where
  | problem (p : Problem) (line column offset : Nat)
  | longInteger (digits : Nat)
  deriving DecidableEq, Repr

def fail (p : Problem) (cs : List Char) : Except Defect α := .error (.problem p cs.length)

-- ---------------------------------------------------------------------------
-- Blanks, numbers and strings
-- ---------------------------------------------------------------------------

def isBlank (c : Char) : Bool := c == ' ' || c == '\t' || c == '\n' || c == '\r'

def skipBlanks (cs : List Char) : List Char := cs.dropWhile isBlank

/-- The fraction of a number: a point with at least one digit after it. -/
def fraction? : List Char → Option (List Nat × List Char)
  | '.' :: cs =>
    match Number.spanDigits cs with
    | ([], _) => none
    | r => some r
  | _ => none

/-- The exponent of a number: its letter, a sign or none, and at least one digit. -/
def exponent? : List Char → Option (Int × List Char)
  | [] => none
  | c :: cs =>
    if c = 'e' ∨ c = 'E' then
      let (negative, body) := Number.splitSign cs
      match Number.spanDigits body with
      | ([], _) => none
      | (ds, rest) => some (Number.signed negative (Text.ofDigits ds), rest)
    else none

/-- The whole part of a number: a lone zero, or digits that do not start with one. -/
def whole? : List Char → Option (List Nat × List Char)
  | '0' :: cs => some ([0], cs)
  | cs =>
    match Number.spanDigits cs with
    | ([], _) => none
    | r => some r

/-- A number. A fraction or an exponent makes it a float. -/
def number (cs : List Char) : Except Defect (Value × List Char) :=
  let (negative, body) := match cs with
    | '-' :: r => (true, r)
    | r => (false, r)
  match whole? body with
  | none => fail .expectingValue cs
  | some (ds, afterWhole) =>
    let (fs, afterFraction) := (fraction? afterWhole).getD ([], afterWhole)
    match exponent? afterFraction with
    | some (e, rest) =>
      .ok (.float (Number.ofDecimal negative (Text.ofDigits (ds ++ fs)) (e - fs.length)), rest)
    | none =>
      if fs.isEmpty then
        if Number.digitLimit < ds.length then .error (.longInteger ds.length)
        else .ok (.int (Number.signed negative (Text.ofDigits ds)), afterFraction)
      else .ok (.float (Number.ofDecimal negative (Text.ofDigits (ds ++ fs)) (-fs.length)), afterFraction)

/-- The value of a hexadecimal digit. -/
def hexDigit? (c : Char) : Option Nat :=
  if '0' ≤ c ∧ c ≤ '9' then some (c.toNat - 48)
  else if 'a' ≤ c ∧ c ≤ 'f' then some (c.toNat - 87)
  else if 'A' ≤ c ∧ c ≤ 'F' then some (c.toNat - 55)
  else none

/-- The code that four hexadecimal digits give. -/
def code? (cs : List Char) : Option Nat :=
  (cs.take 4).foldl (fun n c => n.bind fun m => (hexDigit? c).map (16 * m + ·)) (some 0)

/-- A letter written by code, after its `\u`: two codes when they make a surrogate pair, and half of
a pair when one stands alone. The text must go on after the digits; `cs` starts at the `u`. -/
def codeEscape (cs : List Char) : Except Defect (Text.Letter × List Char) :=
  let ds := cs.drop 1
  if ds.length ≤ 4 then fail .badCodeEscape cs
  else match code? ds with
    | none => fail .badCodeEscape cs
    | some high =>
      let rest := ds.drop 4
      if 0xD800 ≤ high ∧ high ≤ 0xDBFF ∧ 6 < rest.length ∧ rest.take 2 = ['\\', 'u'] then
        match code? (rest.drop 2) with
        | none => fail .badCodeEscape (rest.drop 1)
        | some low =>
          if 0xDC00 ≤ low ∧ low ≤ 0xDFFF then
            .ok (.char (Char.ofNat (0x10000 + (high - 0xD800) * 0x400 + (low - 0xDC00))), rest.drop 6)
          else .ok (.lone high, rest)
      else .ok (if 0xD800 ≤ high ∧ high ≤ 0xDFFF then .lone high else .char (Char.ofNat high), rest)

/-- The character that a letter after a backslash stands for. -/
def letterEscape? : Char → Option Char
  | '"' => some '"'
  | '\\' => some '\\'
  | '/' => some '/'
  | 'b' => some '\x08'
  | 'f' => some '\x0c'
  | 'n' => some '\n'
  | 'r' => some '\r'
  | 't' => some '\t'
  | _ => none

/-- The rest of a string whose opening quote stood where `start` characters remained. -/
def stringTail : (fuel : Nat) → (start : Nat) → List Char → Except Defect (List Text.Letter × List Char)
  | 0, start, _ => .error (.problem .unterminatedString start)
  | _ + 1, start, [] => .error (.problem .unterminatedString start)
  | _ + 1, _, '"' :: cs => .ok ([], cs)
  | _ + 1, start, ['\\'] => .error (.problem .unterminatedString start)
  | fuel + 1, start, '\\' :: c :: cs => do
    let (x, rest) ← if c = 'u' then codeEscape (c :: cs)
      else match letterEscape? c with
        | some x => .ok (.char x, cs)
        | none => fail .badEscape ('\\' :: c :: cs)
    let (xs, rest') ← stringTail fuel start rest
    return (x :: xs, rest')
  | fuel + 1, start, c :: cs => do
    if c < ' ' then fail .controlCharacter (c :: cs)
    let (xs, rest) ← stringTail fuel start cs
    return (.char c :: xs, rest)

/-- A string, read from after its opening quote. -/
def string (cs : List Char) : Except Defect (String × List Char) := do
  let (xs, rest) ← stringTail (cs.length + 1) (cs.length + 1) cs
  return (String.ofList (xs.flatMap Text.Letter.spelling), rest)

-- ---------------------------------------------------------------------------
-- Values
-- ---------------------------------------------------------------------------

/-- The names that stand for values, with the values. -/
def names : List (List Char × Value) :=
  [("null".toList, .null), ("true".toList, .bool true), ("false".toList, .bool false),
    ("NaN".toList, .float (0.0 / 0.0)), ("Infinity".toList, .float (1.0 / 0.0)),
    ("-Infinity".toList, .float (-1.0 / 0.0))]

/-- A named value, if the text starts with its name. -/
def named? (cs : List Char) : Option (Value × List Char) :=
  (names.find? fun n => n.1.isPrefixOf cs).map fun n => (n.2, cs.drop n.1.length)

mutual

/-- A value, with no blanks before it. -/
def value : (fuel : Nat) → List Char → Except Defect (Value × List Char)
  | 0, cs => fail .expectingValue cs
  | fuel + 1, cs =>
    match cs with
    | '"' :: rest => do
      let (s, rest) ← string rest
      return (.text s, rest)
    | '[' :: rest =>
      match skipBlanks rest with
      | ']' :: after => .ok (.list [], after)
      | rest => do
        let (vs, after) ← items fuel rest
        return (.list vs, after)
    | '\x7b' :: rest =>
      match skipBlanks rest with
      | '\x7d' :: after => .ok (.object [], after)
      | rest => do
        let (fs, after) ← fields fuel [] rest
        return (.object fs, after)
    | cs => match named? cs with
      | some r => .ok r
      | none => number cs

/-- The items of a list, up to and with its closing bracket. -/
def items : (fuel : Nat) → List Char → Except Defect (List Value × List Char)
  | 0, cs => fail .expectingValue cs
  | fuel + 1, cs => do
    let (v, rest) ← value fuel cs
    match skipBlanks rest with
    | ']' :: after => return ([v], after)
    | ',' :: after =>
      let (vs, rest) ← items fuel (skipBlanks after)
      return (v :: vs, rest)
    | rest => fail .expectingComma rest

/-- The fields of an object, up to and with its closing brace; `seen` holds those before. -/
def fields : (fuel : Nat) → List (String × Value) → List Char → Except Defect (List (String × Value) × List Char)
  | 0, _, cs => fail .expectingName cs
  | fuel + 1, seen, cs =>
    match cs with
    | '"' :: rest => do
      let (name, rest) ← string rest
      match skipBlanks rest with
      | ':' :: rest =>
        let (v, rest) ← value fuel (skipBlanks rest)
        let seen := Value.setField seen name v
        match skipBlanks rest with
        | '\x7d' :: after => return (seen, after)
        | ',' :: after => fields fuel seen (skipBlanks after)
        | rest => fail .expectingComma rest
      | rest => fail .expectingColon rest
    | cs => fail .expectingName cs

end

-- ---------------------------------------------------------------------------
-- Whole texts
-- ---------------------------------------------------------------------------

/-- The place of a defect in the text that has it. -/
def Defect.place (doc : List Char) : Defect → Fault
  | .longInteger digits => .longInteger digits
  | .problem p remaining =>
    let before := doc.take (doc.length - remaining)
    .problem p (before.count '\n' + 1) ((before.reverse.takeWhile (· ≠ '\n')).length + 1) before.length

/-- One value, with blanks around it and nothing else. -/
def document (cs : List Char) : Except Defect Value := do
  if cs.head? = some '\uFEFF' then fail .byteOrderMark cs
  let (v, rest) ← value (cs.length + 1) (skipBlanks cs)
  match skipBlanks rest with
  | [] => return v
  | rest => fail .extraData rest

/-- The value that a text spells. -/
def parse (s : String) : Except Fault Value :=
  (document s.toList).mapError (Defect.place s.toList)

def Fault.message : Fault → String
  | .problem p line column offset =>
    p.text ++ ": line " ++ toString line ++ " column " ++ toString column ++
      " (char " ++ toString offset ++ ")"
  | .longInteger digits =>
    "Exceeds the limit (4300 digits) for integer string conversion: value has " ++ toString digits ++
      " digits; use sys.set_int_max_str_digits() to increase the limit"

end SmsRelay.Json
