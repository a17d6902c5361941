-- SUMMARY: The state that the parts of a session share, and what is done to it in one go.
import SmsRelay.Application
import SmsRelay.Config
import SmsRelay.Gateway.Cycle
import SmsRelay.Polling
import SmsRelay.Session.Script

/-!
# Stage

The state that the parts of a session share: the gateway with its queues,
handlers and polling loop, the application's stores, what is left of the script
of the modem tool, the clock, and the trace of what has happened.
-/

namespace SmsRelay.Session

open Gateway

/-- Something that happened. -/
inductive Incident where
  | called (name : String) (arguments : List Argument) (label : Option Value)
  /-- A handler that had let others go first goes on. -/
  | resumed (name : String)
  | modem (command : String) (arguments : List String) (time : Nat)
  | logged (e : Log.Entry)
  | cycleBegun (time : Nat)
  | cycleEnded (time : Nat)

/-- What is to run later, of its own. -/
inductive Spawned where
  /-- What has come of the call of a handler, and nobody waits for. -/
  | handler (event : String) (p : Pending)
  /-- The polling loop. -/
  | loop
  /-- The end of the polling loop's wait. -/
  | wake

structure Stage where
  config : Config := {}
  queues : Queues Callable := {}
  listeners : Listeners Callable := .none
  polling : Polling := {}
  store : Store := {}
  /-- Parts kept by handlers that comply, by key. -/
  memory : List (String × List Message) := []
  /-- What is left of the script of the modem tool, by command. -/
  replies : List (String × List Reply) := []
  /-- The number of the next callable. -/
  nextId : Nat := 0
  /-- How often each callable has been called. -/
  calls : List (Nat × Nat) := []
  /-- How many scripted cycles have begun. -/
  cycles : Nat := 0
  /-- Milliseconds since the start. -/
  clock : Nat := 0
  /-- The time of day that the store enters for received messages. -/
  now : String := ""
  /-- The trace, the latest incident first. -/
  trace : List Incident := []
  /-- What has been spawned since the scheduler last looked, the latest first. -/
  spawned : List Spawned := []

namespace Stage

def record (i : Incident) (s : Stage) : Stage := { s with trace := i :: s.trace }

def log (e : Log.Entry) (s : Stage) : Stage := s.record (.logged e)

def logAll (es : List Log.Entry) (s : Stage) : Stage := es.foldl (fun s e => s.log e) s

def spawn (x : Spawned) (s : Stage) : Stage := { s with spawned := x :: s.spawned }

-- ---------------------------------------------------------------------------
-- Callables and handlers
-- ---------------------------------------------------------------------------

/-- Make a callable of a script, under a name. -/
def enlist (name : String) (script : Script) (s : Stage) : Callable × Stage :=
  (⟨s.nextId, name, .script script⟩, { s with nextId := s.nextId + 1 })

/-- Make an argument of an offer. -/
def accept (name : String) (offer : Offer) (s : Stage) : Supplied Callable × Stage :=
  match offer with
  | .value v => (.value v, s)
  | .script script => let (c, s) := s.enlist name script; (.callable c, s)

/-- Make a callback of an offer, whether or not it can be called. -/
def acceptCallback (offer : Offer) (s : Stage) : Option Callable × Stage :=
  match offer with
  | .value .null => (none, s)
  | .value _ => (some ⟨s.nextId, "on_result", .nothing⟩, { s with nextId := s.nextId + 1 })
  | .script script => let (c, s) := s.enlist "on_result" script; (some c, s)

/-- Make arguments of several offers, in order. -/
def acceptAll (offers : List (String × Offer)) (s : Stage) : List (String × Supplied Callable) × Stage :=
  match offers with
  | [] => ([], s)
  | (name, offer) :: rest =>
    let (x, s) := s.accept name offer
    let (xs, s) := s.acceptAll rest
    ((name, x) :: xs, s)

/-- Carry a registration out. -/
def on (r : Listeners.Registration Callable) (s : Stage) : Except Fault Unit × Stage :=
  let (listeners, fault) := s.listeners.on r
  (match fault with
    | some f => .error f
    | none => .ok (), { s with listeners })

/-- Register the handlers that are offered. -/
def register (offers : List (String × Offer)) (s : Stage) : Except Fault Unit × Stage :=
  let (handlers, s) := s.acceptAll offers
  s.on (.several handlers)

/-- The handlers of the application that keeps its messages in the store. -/
def application : Listeners Callable := fun e =>
  if e ∈ Application.events then some ⟨0, e.text, .application⟩ else none

/-- The acts of the next call of a callable. -/
def takeActs (c : Callable) (script : Script) (arguments : List Argument) (s : Stage) : List Act × Stage :=
  let n := (s.calls.lookup c.id).getD 0
  (script.acts n (arguments.map Argument.told),
    { s with calls := (c.id, n + 1) :: s.calls.filter (·.1 ≠ c.id) })

-- ---------------------------------------------------------------------------
-- The gateway
-- ---------------------------------------------------------------------------

/-- Queue a message for sending. -/
def send (destination text : Value) (context callback : Supplied Callable) (s : Stage) :
    Except Fault (Outbound Callable) × Stage :=
  match Outbound.ofArguments destination text context callback with
  | .ok m => (.ok m, { s with queues := enqueueOutbound m s.queues })
  | .error f => (.error f, s)

/-- Queue a message for sending, with what is offered as its context and its callback. -/
def sendOffered (destination text : Value) (context callback : Offer) (s : Stage) :
    Except Fault (Outbound Callable) × Stage :=
  let (context, s) := s.accept "on_result" context
  let (callback, s) := s.accept "on_result" callback
  s.send destination text context callback

def schedulerLog (level : Log.Level) (text : String) (s : Stage) : Stage :=
  s.log ⟨level, "core.scheduler", text⟩

/-- Start polling. -/
def start (s : Stage) : Stage :=
  match s.polling.start with
  | (.launched, polling) =>
    ({ s with polling }.spawn .loop).schedulerLog .info
      ("Polling started (interval=" ++ s.config.interval.plain ++ "s)")
  | (.already, _) => s.schedulerLog .warning "Polling already running"
  | (.resumed, polling) =>
    { s with polling }.schedulerLog .info "Polling resumed before the loop exited"

/-- Stop polling. -/
def stop (s : Stage) : Stage :=
  let s' := if s.polling.endsWait then s.spawn .wake else s
  { s' with polling := s.polling.stop }

-- ---------------------------------------------------------------------------
-- The modem tool and the memory
-- ---------------------------------------------------------------------------

/-- The next reply of the modem tool to a command. -/
def takeReply (command : String) (s : Stage) : Reply × Stage :=
  match s.replies.lookup command with
  | some (r :: rest) =>
    (r, { s with replies := s.replies.map fun x => if x.1 = command then (command, rest) else x })
  | _ => ({}, s)

/-- Keep a part. -/
def remember (m : Message) (s : Stage) : Stage :=
  { s with
    memory := if s.memory.any (·.1 = m.key) then
        s.memory.map fun x => if x.1 = m.key then (x.1, x.2 ++ [m]) else x
      else s.memory ++ [(m.key, [m])] }

/-- The kept parts of a group. -/
def kept (key : String) (s : Stage) : List Message := (s.memory.lookup key).getD []

/-- What has happened since the trace was last taken, the first incident first. -/
def takeTrace (s : Stage) : List Incident × Stage := (s.trace.reverse, { s with trace := [] })

end Stage

end SmsRelay.Session
