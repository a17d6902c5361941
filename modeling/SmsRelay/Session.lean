-- SUMMARY: Sessions of a gateway with a scripted application and a scripted modem tool: steps, their reports, and whole runs.
import SmsRelay.Session.Loop

/-!
# Sessions

A session of a gateway with a scripted application and a scripted modem tool,
on a clock of its own. The session takes one step after another; what a step
sets going in the background is done before the next one, unless it takes time.
-/

namespace SmsRelay.Session

open Gateway

-- ---------------------------------------------------------------------------
-- Steps
-- ---------------------------------------------------------------------------

/-- The phases that can be run on their own. -/
inductive PhaseName where
  | transmit
  | receive
  | deliver
  | delete
  deriving DecidableEq, Repr

inductive Step where
  -- handlers
  | register (event : Value) (offer : Offer)
  | on (event : Value) (offer : Offer)
  | onAll (offers : List (String × Offer))
  | hasListener (event : Value)
  | request (event : Value) (arguments : List Item)
  | notify (event : Value) (arguments : List Item)
  | announce (destination text : String) (context callback : Offer) (r : TransmitResult)
  -- the gateway
  | send (destination text : Value) (context callback : Offer)
  | runCycle
  | runPhase (p : PhaseName)
  | enqueueDeletion (m : Message)
  | lengths
  -- polling
  | start
  | stop
  | batch (starts : List Bool)
  | join
  | sleep (milliseconds : Nat)
  -- the stores
  | listReceived (limit : Value)
  | loadSegments (key : Value)
  | memory

/-- What a step comes to. -/
inductive Result where
  | nothing
  /-- The gateway itself, so that another call can follow. -/
  | chained
  | flag (b : Bool)
  | returned (r : Returned)
  | outbound (m : Outbound Callable)
  | report (r : CycleReport)
  | lengths (outbound inbound deletion : Nat)
  | received (rs : List Store.Received)
  | messages (ms : List Message)
  | memory (groups : List (String × List Message))

namespace Step

open Work

/-- The event that a value names, for those who put requests; anything may be asked for. -/
def eventOf (v : Value) : Except Fault (Option EventName) :=
  match EventName.ofValue v with
  | .ok e => .ok (some e)
  | .error (.unhashable kind) => .error (.unhashable kind)
  | .error _ => .ok none

def phaseOf (s : Stage) : PhaseName → Phase Callable Unit
  | .transmit => transmitPhase s.config.transmitBatch
  | .receive => receivePhase
  | .deliver => deliverPhase
  | .delete => deletePhase s.config.deleteBatch

def startOrStop (start : Bool) (s : Stage) : Stage := if start then s.start else s.stop

/-- Call the callback of a message, and then the handler for sent messages. -/
def announceWork (m : Outbound Callable) (r : TransmitResult) : Work (Except Fault Result) := do
  let arguments : List Argument := [.outbound m, .result r]
  let fired ← match m.callback with
    | some c => fire "on_result" c (.plain arguments)
    | none => pure (.ok ())
  match fired with
  | .error c => return .error (.cancelled c.text)
  | .ok () => return (← Work.request .transmit (.plain arguments)).map fun _ => .nothing

/-- Carry a step out. -/
def work : Step → Work (Except Fault Result)
  | register event offer => do
    let name := event.plain
    let registered ← onStage fun s =>
      let (handler, s) := s.accept name offer
      match s.listeners.register event handler with
      | .ok listeners => (Except.ok (), { s with listeners })
      | .error f => (.error f, s)
    return registered.map fun _ => .nothing
  | on event offer => do
    let registered ← onStage fun s =>
      let (handler, s) := s.accept event.plain offer
      s.on (.one event handler)
    return registered.map fun _ => .chained
  | onAll offers => return (← onStage (·.register offers)).map fun _ => .chained
  | hasListener event => do
    let s ← query .get
    return (eventOf event).map fun
      | some e => .flag (s.listeners e).isSome
      | none => .flag false
  | request event arguments =>
    match eventOf event with
    | .error f => return .error f
    | .ok none => return .error (.noListener event.plain)
    | .ok (some e) => return (← Work.request e (.plain (arguments.map .item))).map .returned
  | notify event arguments =>
    match eventOf event with
    | .error f => return .error f
    | .ok none => return .ok .nothing
    | .ok (some e) => do
      match ← Work.notify e (.plain (arguments.map .item)) with
      | .ok () => return .ok .nothing
      | .error c => return .error (.cancelled c.text)
  | announce destination text context callback r => do
    let context ← onStage (·.accept "on_result" context)
    let callback ← onStage (·.acceptCallback callback)
    announceWork { destination, text, context, callback } r
  | send destination text context callback =>
    return (← onStage (·.sendOffered destination text context callback)).map .outbound
  | runCycle => do
    let s ← query .get
    return (← phase (Gateway.runCycle s.config)).map .report
  | runPhase p => do
    let s ← query .get
    return (← phase (phaseOf s p)).map fun _ => .nothing
  | enqueueDeletion m => do
    change fun s => { s with queues := Gateway.enqueueDeletion m s.queues }
    return .ok .nothing
  | lengths => do
    let q := (← query .get).queues
    return .ok (.lengths q.outbound.length q.inbound.length q.deletion.length)
  | start => do
    change (·.start)
    return .ok .nothing
  | stop => do
    change (·.stop)
    return .ok .nothing
  | batch starts => do
    change fun s => starts.foldl (fun s b => startOrStop b s) s
    return .ok .nothing
  | join => do
    let ended ← query .join
    return ended.map fun _ => .nothing
  | sleep ms => do
    Work.sleep ms
    return .ok .nothing
  | listReceived limit => return ((← query .get).store.listReceived limit).map .received
  | loadSegments key => return ((← query .get).store.loadSegments key).map .messages
  | memory => return .ok (.memory (← query .get).memory)

/-- Whether a step only lets time pass. -/
def isWait : Step → Bool
  | join => true
  | sleep _ => true
  | _ => false

end Step

-- ---------------------------------------------------------------------------
-- Whole sessions
-- ---------------------------------------------------------------------------

/-- What a step has come to: its result, what happened meanwhile, and the stage after it. -/
structure Report where
  result : Except Fault Result
  trace : List Incident
  stage : Stage

/-- Give way so often that whatever a step has set going is done. -/
def settle : (times : Nat) → Work Unit
  | 0 => return
  | n + 1 => do
    Work.pause
    settle n

/-- Take the steps in order. After a step the session settles, if `settles` says so. -/
def takeSteps (settles : Step → Bool) : List Step → Work (List Report)
  | [] => return []
  | step :: rest => do
    let result ← step.work
    if settles step then settle 6
    let (trace, stage) ← Work.onStage fun s => ((s.takeTrace.1, s), s.takeTrace.2)
    return ⟨result, trace, stage⟩ :: (← takeSteps settles rest)

/-- Run a session of at most so many turns. -/
def run (turns : Nat) (setting : Setting) (settles : Step → Bool) (stage : Stage) (steps : List Step) :
    Option (List Report) :=
  Loop.run setting turns { stage, ready := [.main (takeSteps settles steps)] }

/-- Set up a gateway with its handlers: those of the application that keeps its messages in the
store, if it takes part, and then the scripted ones. -/
def stage (config : Config) (application : Bool) (offers : List (String × Offer))
    (replies : List (String × List Reply)) (now : String) : Except Fault Stage := do
  let config ← config.check
  let s : Stage := { config, replies, now, nextId := 1 }
  let s := if application then
    { s with listeners := Stage.application, store := s.store.initialise } else s
  let (registered, s) := s.register offers
  registered
  return s

/-- The setting of a gateway: a cycle of the polling loop is a cycle of the gateway. -/
def gatewaySetting (config : Config) : Setting where
  cycle := do return (← Work.phase (Gateway.runCycle config)).map fun _ => ()
  interval := config.intervalMillis

/-- A scripted cycle of the polling loop. -/
structure CycleScript where
  duration : Option Nat := none
  /-- Whether the cycle starts or stops polling, in order. -/
  starts : List Bool := []
  fault : Option Fault := none

/-- The next scripted cycle. -/
def scriptedCycle (cycles : List CycleScript) : Work (Except Fault Unit) := do
  let script ← Work.onStage fun s =>
    (cycles.getD s.cycles {}, { s with cycles := s.cycles + 1 }.record (.cycleBegun s.clock))
  if let some ms := script.duration then Work.sleep ms
  Work.change fun s => script.starts.foldl (fun s b => Step.startOrStop b s) s
  Work.change fun s => s.record (.cycleEnded s.clock)
  match script.fault with
  | some f => return .error f
  | none => return .ok ()

end SmsRelay.Session
