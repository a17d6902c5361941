-- SUMMARY: The events of the gateway, the handlers registered for them, and what handlers return.
import SmsRelay.Fault
import SmsRelay.Supplied
import SmsRelay.Value.Text

/-!
# Events

The events by which the gateway speaks to the application, and the handlers
registered for them. Some events are requests: the gateway waits for the
handler, and takes its failure for a refusal. The others only give notice.
-/

namespace SmsRelay

inductive EventName where
  | transmit
  | receive
  | receiveSegment
  | returnSegments
  | delete
  | receiveError
  | transmitError
  deriving DecidableEq, Repr

namespace EventName

def text : EventName → String
  | transmit => "transmit"
  | receive => "receive"
  | receiveSegment => "receive_segment"
  | returnSegments => "return_segments"
  | delete => "delete"
  | receiveError => "receive_error"
  | transmitError => "transmit_error"

def all : List EventName :=
  [transmit, receive, receiveSegment, returnSegments, delete, receiveError, transmitError]

/-- The event of a name. -/
def ofText? (s : String) : Option EventName := all.find? (·.text = s)

/-- Whether the gateway waits for the handler. -/
def isRequest : EventName → Bool
  | transmit | receive | receiveSegment | returnSegments => true
  | delete | receiveError | transmitError => false

@[simp] theorem ofText?_text (e : EventName) : ofText? e.text = some e := by cases e <;> rfl

/-- The event that a value names. -/
def ofValue : Value → Except Fault EventName
  | .list vs => .error (.unhashable (Value.list vs).kind)
  | .object fs => .error (.unhashable (Value.object fs).kind)
  | .text s =>
    match ofText? s with
    | some e => .ok e
    | none => .error (.unknownEvent (Value.text s).shown)
  | v => .error (.unknownEvent v.shown)

end EventName

/-- The handlers of an application: at most one for each event. -/
abbrev Listeners (κ : Type) := EventName → Option κ

namespace Listeners

/-- No handlers. -/
def none : Listeners κ := fun _ => Option.none

/-- The handlers with another one for one event. -/
def set (ls : Listeners κ) (e : EventName) (k : κ) : Listeners κ :=
  fun e' => if e' = e then some k else ls e'

@[simp] theorem set_same (ls : Listeners κ) (e : EventName) (k : κ) : ls.set e k e = some k := by
  simp [set]

theorem set_other (ls : Listeners κ) {e e' : EventName} (k : κ) (h : e' ≠ e) : ls.set e k e' = ls e' := by
  simp [set, h]

/-- Register a handler for the event that a value names. -/
def register (ls : Listeners κ) (event : Value) (handler : Supplied κ) : Except Fault (Listeners κ) := do
  let e ← EventName.ofValue event
  match handler with
  | .callable k => return ls.set e k
  | .value _ => throw (.notCallable e.text)

/-- Register handlers in order, up to the first that is refused. -/
def registerAll (ls : Listeners κ) : List (String × Supplied κ) → Listeners κ × Option Fault
  | [] => (ls, Option.none)
  | (event, handler) :: rest =>
    match ls.register (.text event) handler with
    | .ok ls => ls.registerAll rest
    | .error f => (ls, some f)

/-- What an application registers: one handler, or several under the names of their events. -/
inductive Registration (κ : Type) where
  | one (event : Value) (handler : Supplied κ)
  | several (handlers : List (String × Supplied κ))

/-- Carry a registration out. Of several handlers, those before a refused one stay registered. -/
def on (ls : Listeners κ) : Registration κ → Listeners κ × Option Fault
  | .several handlers => ls.registerAll handlers
  | .one (.text event) handler => ls.registerAll [(event, handler)]
  | .one _ _ => (ls, some .badEventName)

end Listeners

end SmsRelay
