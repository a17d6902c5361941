-- SUMMARY: The questions that the phases of a cycle ask, the three queues, and the ways in which faults are kept or passed on.
import SmsRelay.Event
import SmsRelay.Flow
import SmsRelay.Log
import SmsRelay.Message.Reassembly
import SmsRelay.Outbound

/-!
# Phases

What the phases of a polling cycle have in common: the three queues they work
on, and the questions they ask. A phase runs the modem tool, puts requests to
the application and gives it notice. While it waits for an answer anything may
happen to the queues, so each look at them and each change to them is a
question of its own.
-/

namespace SmsRelay.Gateway

/-- The queues of a gateway. `κ` is the type of callbacks. -/
structure Queues (κ : Type) where
  /-- Messages to be sent. -/
  outbound : List (Outbound κ) := []
  /-- Received messages, to be offered to the application. -/
  inbound : List Message := []
  /-- Places on the device to be erased. -/
  deletion : List Candidate := []

/-- What the gateway asks of the application. -/
inductive Request (κ : Type) where
  | transmit (m : Outbound κ) (r : TransmitResult)
  | receive (m : Message)
  | receiveSegment (m : Message)
  | returnSegments (key : String)

def Request.event : Request κ → EventName
  | transmit .. => .transmit
  | receive _ => .receive
  | receiveSegment _ => .receiveSegment
  | returnSegments _ => .returnSegments

/-- What the gateway gives the application notice of. -/
inductive Notice (κ : Type) where
  /-- A place on the device has been erased. -/
  | deleted (c : Candidate)
  /-- A record could not be read, or a message not be received. -/
  | receiveError (about : Item) (f : Fault)
  | transmitError (m : Outbound κ) (f : Fault)

def Notice.event : Notice κ → EventName
  | deleted _ => .delete
  | receiveError .. => .receiveError
  | transmitError .. => .transmitError

theorem Request.isRequest_event (r : Request κ) : r.event.isRequest = true := by cases r <;> rfl

theorem Notice.isRequest_event (n : Notice κ) : n.event.isRequest = false := by cases n <;> rfl

/-- The questions of a phase. -/
inductive Ask (κ : Type) where
  | queues
  | update (f : Queues κ → Queues κ)
  | modem (command : String) (arguments : List String)
  | request (r : Request κ)
  | notify (n : Notice κ)
  | callback (k : κ) (m : Outbound κ) (r : TransmitResult)
  | log (e : Log.Entry)

/-- The answers. A handler that is only given notice cannot refuse; nothing but a cancellation
gets through. -/
def Ask.Answer : Ask κ → Type
  | queues => Queues κ
  | update _ => Unit
  | modem .. => Except Fault Value
  | request _ => Except Fault Returned
  | notify _ => Except Cancellation Unit
  | callback .. => Except Cancellation Unit
  | log _ => Unit

def signature (κ : Type) : Signature := ⟨Ask κ, Ask.Answer⟩

/-- A phase ends with a result or a fault. -/
abbrev Phase (κ : Type) := ExceptT Fault (Flow (signature κ))

namespace Phase

variable {κ : Type}

/-- Put one question. -/
def query (q : Ask κ) : Flow (signature κ) q.Answer := Flow.query (S := signature κ) q

def queues : Phase κ (Queues κ) := ExceptT.lift (query .queues)

def update (f : Queues κ → Queues κ) : Phase κ Unit := ExceptT.lift (query (.update f))

/-- Run the modem tool. -/
def modem (command : String) (arguments : List String) : Phase κ Value :=
  ExceptT.mk (query (.modem command arguments))

/-- Put a request to the application, and take its refusal for an answer. -/
def attempt (r : Request κ) : Phase κ (Except Fault Returned) := do
  match ← ExceptT.lift (query (.request r)) with
  | .ok answer => return .ok answer
  | .error f => if f.isCancellation then throw f else return .error f

/-- Put a request to the application. -/
def request (r : Request κ) : Phase κ Returned := ExceptT.mk (query (.request r))

/-- A cancellation that gets through. -/
def contain : Except Cancellation Unit → Except Fault Unit
  | .ok () => .ok ()
  | .error c => .error (.cancelled c.text)

def notify (n : Notice κ) : Phase κ Unit := ExceptT.mk (contain <$> query (.notify n))

def callback (k : κ) (m : Outbound κ) (r : TransmitResult) : Phase κ Unit :=
  ExceptT.mk (contain <$> query (.callback k m r))

def log (level : Log.Level) (source text : String) : Phase κ Unit :=
  ExceptT.lift (query (.log ⟨level, source, text⟩))

/-- An outcome that is settled without a question. -/
def settled : Except Fault α → Phase κ α := fun r => ExceptT.mk (pure r)

end Phase

end SmsRelay.Gateway
