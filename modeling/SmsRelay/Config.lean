-- SUMMARY: The settings of a gateway: their defaults, their conversion from values, and the check that they are positive.
import SmsRelay.Value.Fields
import SmsRelay.Value.Number

/-!
# Configuration

The settings of one gateway. Those of the configuration file are converted to
numbers; those that a program supplies are kept as they are. Both must be
positive, and the modem tool must have a name.
-/

namespace SmsRelay

structure Config where
  /-- Seconds between the end of one polling cycle and the start of the next. -/
  interval : Value := .int 10
  /-- How many messages one transmission may hold. -/
  transmitBatch : Value := .int 64
  /-- How many places one deletion may erase. -/
  deleteBatch : Value := .int 1024
  /-- Where the modem tool is installed; its programs are in `bin` below. -/
  home : Value := .null
  /-- The name of the modem tool. -/
  executable : Value := .text "gammu-json"

namespace Config

/-- Refuse a setting that is not above zero. -/
def requirePositive (name : String) (v : Value) : Except Fault Unit := do
  if ← v.isAtMostZero then throw (.notPositive name)

/-- The settings, if they can be used. -/
def check (c : Config) : Except Fault Config := do
  requirePositive "poll_interval_seconds" c.interval
  requirePositive "transmit_batch_size" c.transmitBatch
  requirePositive "delete_batch_size" c.deleteBatch
  if !c.executable.isGiven then throw .noExecutable
  return c

/-- The settings among the fields of an object, converted to numbers. -/
def ofFields (fields : List (String × Value)) : Except Fault Config := do
  let interval ← (Value.fieldOr fields "poll_interval_seconds" (.int 10)).toReal
  let transmitBatch ← (Value.fieldOr fields "transmit_batch_size" (.int 64)).toInteger
  let deleteBatch ← (Value.fieldOr fields "delete_batch_size" (.int 1024)).toInteger
  check
    { interval := .float interval
      transmitBatch := .int transmitBatch
      deleteBatch := .int deleteBatch
      home := (Value.fieldOr fields "prefix" .null).orElse .null
      executable := (Value.fieldOr fields "executable" .null).orElse (.text "gammu-json") }

/-- The settings that a section of the configuration file gives. An empty section, or none,
leaves every setting at its default. -/
def ofValue (raw : Value) : Except Fault Config := do
  ofFields (← (raw.orElse (.object [])).fields)

/-- How many entries a batch of this size takes. Only whole numbers count entries. -/
def batchCount : Value → Except Fault Nat
  | .bool b => .ok b.toNat
  | .int n => .ok n.toNat
  | _ => .error .notIndex

/-- The time between two cycles in milliseconds, which is what the clocks of sessions count; `none` if it never ends.
Intervals between two of them are rounded. A time that is no number is never after the present, so such an interval is
over at once. -/
def intervalMillis (c : Config) : Option Nat :=
  match c.interval with
  | .bool b => some (1000 * b.toNat)
  | .int n => some (1000 * n.toNat)
  | .float x =>
    match Number.parts x with
    | .finite _ m e => some ((Number.Ratio.scaled (1000 * m) 2 e).round)
    | .nan => some 0
    | .infinite _ => none
  | _ => none

@[simp] theorem batchCount_int (n : Int) : batchCount (.int n) = .ok n.toNat := rfl

end Config

end SmsRelay
