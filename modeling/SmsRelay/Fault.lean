-- SUMMARY: Everything that can go wrong, and the wording of every report.
import SmsRelay.Json
import SmsRelay.Text.Quoted
import SmsRelay.Text.Utf8

/-!
# Faults

Everything that can go wrong, by cause. A fault carries what its report needs;
`Fault.message` holds the wording of every report, and `Fault.isCancellation`
tells the one fault that no part of the relay may contain.
-/

namespace SmsRelay

/-- A run of the modem tool that failed, or whose output is of no use. -/
structure ToolFailure where
  command : String
  problem : String
  exitCode : Option Int := none
  errorText : String := ""
  deriving DecidableEq, Repr

/-- The command, the problem, and what the tool said about it. -/
def ToolFailure.message (f : ToolFailure) : String :=
  let said := if f.errorText = "" then "" else " (" ++ Text.strip f.errorText ++ ")"
  f.command ++ ": " ++ f.problem ++ said

/-- The kinds of failure that an application may signal. -/
inductive Signal where
  | runtime
  | value
  | key
  | type
  | system
  | argument
  | reassembly
  | gateway
  deriving DecidableEq, Repr

/-- The order to end some work at once. -/
structure Cancellation where
  text : String := ""
  deriving DecidableEq, Repr

/-- What went wrong. -/
inductive Fault where
  -- values
  /-- Fields were asked of something that has none. -/
  | noFields (kind : String)
  /-- Part of a message was asked of something that is none. -/
  | noAttribute (kind name : String)
  | notIterable (kind : String)
  | notInteger (kind : String)
  | notReal (kind : String)
  | badInteger (text : String)
  | badReal (text : String)
  | longInteger (digits : Nat)
  | integerOfInfinity
  | integerOfNan
  | realTooLarge
  | incomparable (relation left right : String)
  | notIndex
  | notPath (kind : String)
  | unhashable (kind : String)
  -- configuration
  | notPositive (setting : String)
  | noExecutable
  | noConfigFile (path : String)
  | unknownLevel (name : String)
  -- records
  | recordKind (kind : String)
  | missingField (name : String)
  | noSender
  -- sending
  | badCallback
  | badDestination
  | badText
  | partialTransmission (destination status : String)
  -- events
  | unknownEvent (shown : String)
  | notCallable (event : String)
  | badEventName
  | noListener (event : String)
  -- reassembly
  | badSegments
  | badSegment (kind : String)
  -- the modem tool
  | tool (failure : ToolFailure)
  | nullByte
  | badJson (fault : Json.Fault)
  | badUtf8 (fault : Text.Utf8.Fault)
  | system (code : Nat) (problem path : String)
  -- the store
  | noTable (name : String)
  | nullColumn (table column : String)
  | typeMismatch
  | unbindable (position : Nat) (kind : String)
  | wideInteger
  /-- Halves of surrogate pairs stand in a text, in a row from a place. -/
  | loneSurrogates (place : Nat) (codes : List Nat)
  -- log lines
  | badFormat (format : String)
  | noLogField (name : String)
  | notNumber (form : Char) (kind : String)
  -- applications
  | signalled (signal : Signal) (text : String)
  | cancelled (text : String)
  deriving DecidableEq, Repr

namespace Fault

/-- The report of a byte sequence that spells no text: the byte, or the range of bytes. -/
def utf8Message (f : Text.Utf8.Fault) : String :=
  let place := match f.bytes with
    | [b] => "byte 0x" ++ String.ofList (Text.hex 2 b.toNat) ++ " in position " ++ toString f.offset
    | bs => "bytes in position " ++ toString f.offset ++ "-" ++ toString (f.offset + bs.length - 1)
  "'utf-8' codec can't decode " ++ place ++ ": " ++ f.defect.reason

/-- The report of a text that has no bytes: the half of a surrogate pair in it, or the range of several. -/
def surrogateMessage (place : Nat) (codes : List Nat) : String :=
  let found := match codes with
    | [code] => "character '" ++ String.ofList (Text.numbered code) ++ "' in position " ++ toString place
    | codes => "characters in position " ++ toString place ++ "-" ++ toString (place + codes.length - 1)
  "'utf-8' codec can't encode " ++ found ++ ": surrogates not allowed"

/-- The report of a fault. -/
def message : Fault → String
  | noFields kind => "'" ++ kind ++ "' object has no attribute 'get'"
  | noAttribute kind name => "'" ++ kind ++ "' object has no attribute '" ++ name ++ "'"
  | notIterable kind => "'" ++ kind ++ "' object is not iterable"
  | notInteger kind =>
    "int() argument must be a string, a bytes-like object or a real number, not '" ++ kind ++ "'"
  | notReal kind => "float() argument must be a string or a real number, not '" ++ kind ++ "'"
  | badInteger text =>
    "invalid literal for int() with base 10: " ++ String.ofList ((Text.quote text).toList.take 200)
  | badReal text => "could not convert string to float: " ++ Text.quote text
  | longInteger digits => (Json.Fault.longInteger digits).message
  | integerOfInfinity => "cannot convert float infinity to integer"
  | integerOfNan => "cannot convert float NaN to integer"
  | realTooLarge => "int too large to convert to float"
  | incomparable relation left right =>
    "'" ++ relation ++ "' not supported between instances of '" ++ left ++ "' and '" ++ right ++ "'"
  | notIndex => "slice indices must be integers or None or have an __index__ method"
  | notPath kind => "expected str, bytes or os.PathLike object, not " ++ kind
  | unhashable kind => "unhashable type: '" ++ kind ++ "'"
  | notPositive setting => setting ++ " must be positive"
  | noExecutable => "executable must be a non-empty string"
  | noConfigFile path => "Config file not found: " ++ path
  | unknownLevel name => "Unknown level: " ++ Text.quote name
  | recordKind kind => "Message record must be an object, got " ++ kind
  | missingField name => Text.quote name
  | noSender => "Message record has no sender"
  | badCallback => "Callback, if provided, must be callable"
  | badDestination => "Destination must be supplied as a non-empty string"
  | badText => "Message text must be supplied as a non-empty string"
  | partialTransmission destination status =>
    "Transmission to " ++ destination ++ " failed with status " ++ Text.quote status
  | unknownEvent shown => "Invalid event specified: " ++ shown
  | notCallable event => "Handler for '" ++ event ++ "' must be callable"
  | badEventName => "Event name has an invalid type"
  | noListener event => "No listener present for '" ++ event ++ "'"
  | badSegments => "Event handler `return_segments` provided invalid data"
  | badSegment kind => "Event handler `return_segments` provided a non-message item: " ++ kind
  | tool failure => failure.message
  | nullByte => "embedded null byte"
  | badJson fault => fault.message
  | badUtf8 fault => utf8Message fault
  | system code problem path =>
    "[Errno " ++ toString code ++ "] " ++ problem ++ ": " ++ Text.quote path
  | noTable name => "no such table: " ++ name
  | nullColumn table column => "NOT NULL constraint failed: " ++ table ++ "." ++ column
  | typeMismatch => "datatype mismatch"
  | unbindable position kind =>
    "Error binding parameter " ++ toString position ++ ": type '" ++ kind ++ "' is not supported"
  | wideInteger => "Python int too large to convert to SQLite INTEGER"
  | loneSurrogates place codes => surrogateMessage place codes
  | badFormat format => "Invalid format '" ++ format ++ "' for '%' style"
  | noLogField name => "Formatting field not found in record: " ++ Text.quote name
  | notNumber form kind =>
    "%" ++ String.singleton form ++ " format: a real number is required, not " ++ kind
  | signalled .key text => Text.quote text
  | signalled _ text => text
  | cancelled text => text

/-- A cancellation ends the work it reaches; everything else can be contained. -/
def isCancellation : Fault → Bool
  | cancelled _ => true
  | _ => false

end Fault

end SmsRelay
