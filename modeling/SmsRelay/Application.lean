-- SUMMARY: The application that keeps its messages in the store: its answers to requests, and what it does when it is given notice.
import SmsRelay.Gateway.Phase
import SmsRelay.Store

/-!
# Application

The application that keeps its messages in the store. It takes every message
it is offered into the inbox, keeps parts until their message is complete, and
forgets parts whose place on the device has been erased. All else it only
writes to the log.
-/

namespace SmsRelay.Application

open Gateway

/-- What a handler of the application does: an answer, the store after it, and what it logs. A
handler that fails changes nothing. -/
structure Done (α : Type) where
  answer : α
  store : Store
  log : List Log.Entry := []

/-- The events that the application handles. -/
def events : List EventName :=
  [.receive, .receiveSegment, .returnSegments, .transmit, .delete, .receiveError, .transmitError]

def entry (level : Log.Level) (text : String) : Log.Entry := ⟨level, "app", text⟩

/-- Handle a request. `now` is the time at which it comes. -/
def handle (now : String) (s : Store) : Request κ → Except Fault (Done Returned)
  | .receive m => do
    let (id, store) ← s.saveReceived now m.unchecked
    return { answer := .nothing, store, log := [entry .info ("Received message " ++ toString id ++ " from " ++
      m.sender ++ " (" ++ toString m.total ++ " part(s))")] }
  | .receiveSegment m => do
    return { answer := .nothing, store := ← s.saveSegment m.unchecked }
  | .returnSegments key => do
    return { answer := .items ((← s.loadSegments (.text key)).map .message), store := s }
  | .transmit m r =>
    .ok { answer := .nothing, store := s, log := [entry .info ("Message to " ++ m.destination ++
      " handed off (index " ++ toString r.index ++ ")")] }

/-- Take notice. -/
def observe (s : Store) : Notice κ → Except Fault (Done Unit)
  | .deleted c => do
    let (_, store) ← s.forget (.int c.location)
    return { answer := (), store, log := [entry .debug ("Location " ++ toString c.location ++
      " erased from device")] }
  | .receiveError _ f => .ok { answer := (), store := s, log := [entry .warning ("Receive error: " ++ f.message)] }
  | .transmitError m f =>
    .ok { answer := (), store := s, log := [entry .warning ("Transmit error for " ++ m.destination ++ ": " ++
      f.message)] }

end SmsRelay.Application
