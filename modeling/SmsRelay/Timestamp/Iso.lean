-- SUMMARY: Reading ISO dates, times and offsets.
import SmsRelay.Text.Digit
import SmsRelay.Text.Lone
import SmsRelay.Timestamp

/-!
# Reading ISO timestamps

Dates by month or by week, with hyphens or without; after one separator of any
kind a time of one to three fields and a fraction; then `Z` or an offset.
Lengths are counted in bytes of UTF-8, and a character U+0000 stands for the
end of the text. Half of a surrogate pair may be the separator, and stand nowhere
else.
-/

namespace SmsRelay.Timestamp.Iso

open Text

-- ---------------------------------------------------------------------------
-- Units
-- ---------------------------------------------------------------------------

/-- A text byte by byte: an ASCII character is itself, any other is that many times U+FFFD. -/
def units (cs : List Char) : List Char :=
  cs.flatMap fun c => if c.toNat < 0x80 then [c] else List.replicate c.utf8Size '\uFFFD'

/-- The next unit; U+0000 at the end. -/
def next (cs : List Char) : Char := cs.headD '\x00'

/-- The unit at a place; U+0000 past the end. -/
def unitAt (cs : List Char) (i : Nat) : Char := cs.getD i '\x00'

@[simp] theorem next_nil : next [] = '\x00' := rfl

@[simp] theorem next_cons (c : Char) (cs : List Char) : next (c :: cs) = c := rfl

/-- A number of exactly `n` ASCII digits, and the text after it. -/
def digits? (n : Nat) (cs : List Char) : Option (Nat × List Char) :=
  if cs.length < n then none
  else (((cs.take n).mapM asciiDigit?).map ofDigits).map fun v => (v, cs.drop n)

-- ---------------------------------------------------------------------------
-- Dates
-- ---------------------------------------------------------------------------

/-- Where the date ends. A text of seven units is all date. A week may be followed by a weekday;
where a run of digits leaves it open whether it starts with one, times are taken to have an even
number of digits. -/
def dateLength? (cs : List Char) : Option Nat :=
  if cs.length = 7 then some 7
  else if unitAt cs 4 = '-' then
    if unitAt cs 5 ≠ 'W' then some 10
    else if cs.length < 8 ∨ (cs.length = 9 ∧ unitAt cs 8 = '-') then none
    else if unitAt cs 8 = '-' ∧ 8 < cs.length then
      if (asciiDigit? (unitAt cs 10)).isSome then some 8 else some 10
    else some 8
  else if unitAt cs 4 = 'W' then
    let run := 7 + ((cs.drop 7).takeWhile fun c => (asciiDigit? c).isSome).length
    if run < 9 then some (min run cs.length) else if run % 2 = 0 then some 7 else some 8
  else some 8

/-- The weekday of a week date that has one; Monday if the date ends with the week. -/
def weekday? (hyphens : Bool) (length used : Nat) (cs : List Char) : Option Nat :=
  if length ≤ used then some 1
  else if hyphens then
    if next cs = '-' then (digits? 1 (cs.drop 1)).map (·.1) else none
  else (digits? 1 cs).map (·.1)

/-- A date of so many units at the start of the text. -/
def date? (length : Nat) (cs : List Char) : Option Date := do
  let (year, afterYear) ← digits? 4 cs
  let hyphens : Bool := next afterYear = '-'
  let rest := if hyphens then afterYear.drop 1 else afterYear
  if next rest = 'W' then
    let (week, afterWeek) ← digits? 2 (rest.drop 1)
    let day ← weekday? hyphens length (if hyphens then 8 else 7) afterWeek
    Date.ofWeek? year week day
  else
    let (month, afterMonth) ← digits? 2 rest
    if hyphens && next afterMonth ≠ '-' then none
    let (day, _) ← digits? 2 (if hyphens then afterMonth.drop 1 else afterMonth)
    if length ≠ (if hyphens then 10 else 8) then none
    Date.of? year month day

-- ---------------------------------------------------------------------------
-- Times
-- ---------------------------------------------------------------------------

/-- The numbers of a time, and whether nothing follows them. -/
structure Clock where
  hour : Nat := 0
  minute : Nat := 0
  second : Nat := 0
  micro : Nat := 0
  clean : Bool := true

/-- A fraction of one to six digits, `room` units long, as millionths; digits beyond six are
skipped. -/
def fraction? (room : Nat) (cs : List Char) : Option (Nat × Bool) := do
  let n := min 6 room
  let (v, rest) ← digits? n cs
  let after := rest.dropWhile fun c => (asciiDigit? c).isSome
  return (v * Nat.pow 10 (6 - n), next after = '\x00')

/-- Up to `n` two-digit fields and a fraction, in the first `room` units. The fields stand all
with colons between them or all without; `colons` says which, once it is known. -/
def fields? : (n : Nat) → (colons : Option Bool) → (room : Nat) → List Char → Option (List Nat × Nat × Bool)
  | 0, _, room, cs => do
    let (micro, clean) ← fraction? room cs
    return ([], micro, clean)
  | n + 1, colons, room, cs => do
    let (v, rest) ← digits? 2 cs
    let c := next rest
    let colons := colons.getD (c = ':')
    let (vs, micro, clean) ←
      if room ≤ 3 then some ([], 0, decide (c = '\x00'))
      else if colons && c = ':' then fields? n (some true) (room - 3) (rest.drop 1)
      else if c = '.' ∨ c = ',' then fields? 0 none (room - 3) (rest.drop 1)
      else if !colons then fields? n (some false) (room - 2) rest
      else none
    return (v :: vs, micro, clean)

/-- A time in the first `room` units of the text. -/
def clock? (room : Nat) (cs : List Char) : Option Clock := do
  let (vs, micro, clean) ← fields? 3 none room cs
  return ⟨vs.getD 0 0, vs.getD 1 0, vs.getD 2 0, micro, clean⟩

/-- An offset, read from after its sign. One of less than a second is none. -/
def offset? (behind : Bool) (cs : List Char) : Option Offset := do
  let c ← clock? cs.length cs
  if !c.clean then none
  let seconds := c.hour * 3600 + c.minute * 60 + c.second
  if seconds = 0 then some Offset.zero else Offset.of? behind (seconds * 1000000 + c.micro)

/-- Characters that start an offset. -/
def startsOffset (c : Char) : Bool := c = '+' || c = '-' || c = 'Z'

/-- A time of day and perhaps an offset. -/
def timeAndOffset? (cs : List Char) : Option (Time × Option Offset) := do
  let room := (cs.takeWhile fun c => !startsOffset c).length
  let c ← clock? room cs
  let time ← Time.of? c.hour c.minute c.second c.micro
  match cs.drop room with
  | [] => if c.clean then some (time, none) else none
  | mark :: rest =>
    if mark = 'Z' then if next rest = '\x00' then some (time, some Offset.zero) else none
    else (offset? (mark = '-') rest).map fun o => (time, some o)

-- ---------------------------------------------------------------------------
-- Whole texts
-- ---------------------------------------------------------------------------

/-- The places in which the separator may stand. -/
def separatorPlaces : List Nat := [7, 8, 10]

/-- The characters of a text. Half of a surrogate pair in the place of the separator counts as a
letter. -/
def plainChars? (cs : List Char) : Option (List Char) :=
  let ls := letters cs
  let ls := match separatorPlaces.find? fun i => ls[i]?.any Letter.isLone with
    | some i => ls.set i (.char 'T')
    | none => ls
  ls.mapM Letter.char?

/-- The timestamp that characters spell. A date alone stands for its midnight. -/
def readChars (cs : List Char) : Option Timestamp := do
  let length ← dateLength? (units cs)
  let date ← date? length (units cs)
  match cs.drop length with
  | [] => some ⟨date, Time.midnight, none⟩
  | _ :: rest =>
    let (time, offset) ← timeAndOffset? (units rest)
    some ⟨date, time, offset⟩

/-- The timestamp that a text spells. -/
def read (cs : List Char) : Option Timestamp := (plainChars? cs).bind readChars

theorem plainChars?_of_unmarked {cs : List Char} (h : mark ∉ cs) : plainChars? cs = some cs := by
  have hnone : separatorPlaces.find? (fun i => (cs.map Letter.char)[i]?.any Letter.isLone) = none := by
    refine List.find?_eq_none.mpr fun i _ => ?_
    rw [List.getElem?_map]
    cases cs[i]? <;> simp [Letter.isLone]
  have hchars : (cs.map Letter.char).mapM Letter.char? = some cs := by
    clear h hnone
    induction cs with
    | nil => rfl
    | cons c cs ih => simp [Letter.char?, ih]
  rw [plainChars?, letters_of_unmarked h, hnone, hchars]

end SmsRelay.Timestamp.Iso
