-- SUMMARY: Templates of log lines, and how an entry is laid out by one.
import SmsRelay.Fault
import SmsRelay.Value.Number
import SmsRelay.Value.Text

/-!
# Templates of log lines

A log line is laid out by a template, in which `%(name)s` stands for a field of
the entry: its text, or with `d` in place of `s` its number. Flags and widths
may stand before the letter. `%%` is a percent sign.
-/

namespace SmsRelay.Log

/-- One piece of a template. -/
inductive Template.Piece where
  | literal (c : Char)
  | field (name : String) (flags : List Char) (width : Nat) (precision : Option Nat) (form : Char)

structure Template where
  pieces : List Template.Piece

namespace Template

/-- A decimal number at the start of a text, and the text after it. -/
def number? (cs : List Char) : Option (Nat × List Char) :=
  match cs.takeWhile Char.isDigit with
  | [] => none
  | ds => some (ds.foldl (fun n c => 10 * n + (c.toNat - 48)) 0, cs.dropWhile Char.isDigit)

/-- The letters that end a piece for a field. -/
def isForm (c : Char) : Bool := c ∈ ['d', 'i', 'u', 's', 'r', 'a']

/-- A piece for a field, read from after its percent sign. -/
def field? : List Char → Option (Piece × List Char)
  | '(' :: cs =>
    match cs.dropWhile (· ≠ ')') with
    | [] => none
    | _ :: afterName =>
      let name := String.ofList (cs.takeWhile (· ≠ ')'))
      let flags := afterName.takeWhile (· ∈ ['#', '0', '+', ' ', '-'])
      let (width, afterWidth) := (number? (afterName.drop flags.length)).getD
        (0, afterName.drop flags.length)
      let (precision, afterPrecision) := match afterWidth with
        | '.' :: rest =>
          let (n, rest) := (number? rest).getD (0, rest)
          (some n, rest)
        | rest => (none, rest)
      match afterPrecision with
      | form :: rest => if isForm form then some (.field name flags width precision form, rest) else none
      | [] => none
  | _ => none

/-- The pieces of a template text. -/
def readPieces : (fuel : Nat) → List Char → Option (List Piece)
  | 0, _ => some []
  | _ + 1, [] => some []
  | fuel + 1, '%' :: '%' :: cs => (readPieces fuel cs).map (.literal '%' :: ·)
  | fuel + 1, '%' :: cs => do
    let (piece, rest) ← field? cs
    return piece :: (← readPieces fuel rest)
  | fuel + 1, c :: cs => (readPieces fuel cs).map (.literal c :: ·)

def Piece.isField : Piece → Bool
  | .field .. => true
  | .literal _ => false

/-- The template that a text spells. It must have at least one field; an empty text stands for
the message alone. -/
def read (text : String) : Except Fault Template :=
  let text := if text = "" then "%(message)s" else text
  match readPieces (text.length + 1) text.toList with
  | some pieces => if pieces.any Piece.isField then .ok ⟨pieces⟩ else .error (.badFormat text)
  | none => .error (.badFormat text)

/-- A text in a column of the given width, to the right or, with a hyphen flag, to the left. -/
def pad (flags : List Char) (width : Nat) (cs : List Char) : List Char :=
  let blanks := List.replicate (width - cs.length) ' '
  if '-' ∈ flags then cs ++ blanks else blanks ++ cs

/-- An integer in a column: signed as the flags say, with zeros before it if they ask for them. -/
def padInteger (flags : List Char) (width : Nat) (n : Int) : List Char :=
  let digits := Nat.toDigits 10 n.natAbs
  let sign := if n < 0 then ['-'] else if '+' ∈ flags then ['+'] else if ' ' ∈ flags then [' '] else []
  if '0' ∈ flags ∧ '-' ∉ flags then
    sign ++ List.replicate (width - sign.length - digits.length) '0' ++ digits
  else pad flags width (sign ++ digits)

/-- The text of one field. -/
def fieldText (v : Value) (flags : List Char) (width : Nat) (precision : Option Nat) (form : Char) :
    Except Fault (List Char) :=
  if form ∈ ['d', 'i', 'u'] then
    match v with
    | .int n => .ok (padInteger flags width n)
    | .bool b => .ok (padInteger flags width (if b then 1 else 0))
    | .float x => (Value.integerOfFloat x).map (padInteger flags width)
    | v => .error (.notNumber form v.kind)
  else
    let cs := (if form = 's' then v.plain else v.shown).toList
    .ok (pad flags width (match precision with | some p => cs.take p | none => cs))

/-- The text of one piece, for an entry with the given fields. -/
def Piece.text (fields : List (String × Value)) : Piece → Except Fault (List Char)
  | .literal c => .ok [c]
  | .field name flags width precision form =>
    match Value.field? fields name with
    | some v => fieldText v flags width precision form
    | none => .error (.noLogField name)

/-- The line for an entry with the given fields. -/
def render (t : Template) (fields : List (String × Value)) : Except Fault String := do
  let texts ← t.pieces.mapM (Piece.text fields)
  return String.ofList texts.flatten

end Template

/-- A line with the report of an error after it, on a line of its own. -/
def withReport (line : String) : Option String → String
  | none => line
  | some "" => line
  | some report => if line.endsWith "\n" then line ++ report else line ++ "\n" ++ report

end SmsRelay.Log
