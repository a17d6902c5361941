-- SUMMARY: Where the log goes, as its section of the configuration says.
import SmsRelay.Log
import SmsRelay.Log.Mask
import SmsRelay.Log.Template
import SmsRelay.Path
import SmsRelay.Value.Fields

/-!
# Log setup

Where the log goes, as the `logging` section of the configuration says: to the
console, to a file that is rotated, to both or nowhere, from which level on, and
whether phone numbers are masked.
-/

namespace SmsRelay.Log

-- ---------------------------------------------------------------------------
-- Levels
-- ---------------------------------------------------------------------------

/-- The levels that the configuration may name, with their ranks. -/
def ranks : List (String × Nat) :=
  [("DEBUG", 10), ("INFO", 20), ("WARN", 30), ("WARNING", 30), ("ERROR", 40), ("CRITICAL", 50),
    ("FATAL", 50), ("NOTSET", 0)]

/-- The layout of a bare log line. Its name stands among the names of levels, but it is none. -/
def bareLayout : String := "%(levelname)s:%(name)s:%(message)s"

/-- The letters of level names in upper case. Besides ASCII letters, the dotless i, the long s,
the sharp s and the ligatures have upper-case forms in ASCII. -/
def upperChar (c : Char) : List Char :=
  match c with
  | 'ı' => ['I']
  | 'ſ' => ['S']
  | 'ß' => ['S', 'S']
  | 'ﬀ' => ['F', 'F']
  | 'ﬁ' => ['F', 'I']
  | 'ﬂ' => ['F', 'L']
  | 'ﬃ' => ['F', 'F', 'I']
  | 'ﬄ' => ['F', 'F', 'L']
  | 'ﬅ' => ['S', 'T']
  | 'ﬆ' => ['S', 'T']
  | c => [c.toUpper]

def upper (s : String) : String := String.ofList (s.toList.flatMap upperChar)

/-- The rank of a level, by its name in any case; a name that is none stands for `INFO`. -/
def rankOf (name : String) : Except Fault Nat :=
  if upper name = "BASIC_FORMAT" then .error (.unknownLevel bareLayout)
  else .ok ((ranks.lookup (upper name)).getD 20)

-- ---------------------------------------------------------------------------
-- Destinations
-- ---------------------------------------------------------------------------

/-- Where entries are written. -/
inductive Destination where
  | console
  | file (path : String) (maxBytes backups : Int)
  deriving DecidableEq, Repr

/-- What the configuration says about the log. -/
structure Setup where
  rank : Nat
  masked : Bool
  destinations : List Destination
  deriving DecidableEq, Repr

namespace Setup

/-- The log before it is set up: nothing is written, and warnings count. -/
def silent : Setup := ⟨30, false, []⟩

/-- The log file that a section describes. A path is taken below `root`; it must not lead to a
directory. The directory of the file is made before its sizes are read, the file itself after. -/
def file (root : String) (fields : List (String × Value)) : Except Fault Destination := do
  let path ← match Value.fieldOr fields "path" (.text "logs/smsrelay.log") with
    | .text path => pure path
    | v => throw (.notPath v.kind)
  if (Path.parent path).contains '\x00' then throw .nullByte
  let maxBytes ← (Value.fieldOr fields "max_bytes" (.int 5242880)).toInteger
  let backups ← (Value.fieldOr fields "backup_count" (.int 5)).toInteger
  if path.contains '\x00' then throw .nullByte
  let place := Path.absolute root path
  if Path.endsAsDirectory path ∨ Path.leadsTo place root then
    throw (.system 21 "Is a directory" place)
  return .file place maxBytes backups

/-- The setup that the `logging` section describes. Log files are taken below `root`. -/
def ofValue (root : String) (logging : Value) : Except Fault Setup := do
  let fields ← (logging.orElse (.object [])).fields
  if !(Value.fieldOr fields "enabled" (.bool true)).isGiven then return silent
  let level := (Value.fieldOr fields "level" (.text "INFO")).plain
  let masked := (Value.fieldOr fields "mask_numbers" (.bool false)).isGiven
  let console := if (Value.fieldOr fields "console" (.bool true)).isGiven then [Destination.console] else []
  let fileFields ← (Value.fieldOr fields "file" (.object [])).fields
  let files ← if (Value.fieldOr fileFields "enabled" (.bool false)).isGiven then
    (file root fileFields).map ([·]) else pure []
  let destinations := console ++ files
  if destinations.isEmpty then return silent
  return ⟨← rankOf level, masked, destinations⟩

/-- Whether an entry is written at all. -/
def shows (s : Setup) (e : Entry) : Bool := s.rank ≤ e.level.rank

/-- The line that an entry makes in the log, at the given time. -/
def line (s : Setup) (time : String) (e : Entry) : String :=
  maskIf s.masked (time ++ " " ++ e.level.name ++ " " ++ e.source ++ ": " ++ e.text)

end Setup

end SmsRelay.Log
