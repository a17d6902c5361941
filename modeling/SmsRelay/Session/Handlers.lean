-- SUMMARY: The work of scripted handlers, of the application and of the modem tool: calls, awaiting, notices, and phases on a stage.
import SmsRelay.Session.Stage

/-!
# Handlers at work

The flow of a session: how scripted handlers, the application and the modem
tool answer what the gateway asks. Between two questions of such a flow nothing
else happens, unless it pauses, sleeps, or waits for the polling loop.
-/

namespace SmsRelay.Session

open Gateway

/-- The questions of a session. -/
inductive Ask where
  | get
  | put (s : Stage)
  /-- Let everybody else who is ready go first. -/
  | pause
  | sleep (milliseconds : Nat)
  /-- Wait until there is no polling loop. -/
  | join

def Ask.Answer : Ask → Type
  | get => Stage
  | put _ => Unit
  | pause => Unit
  | sleep _ => Unit
  | join => Except Fault Unit

def signature : Signature := ⟨Ask, Ask.Answer⟩

/-- What a part of a session does. -/
abbrev Work := Flow signature

namespace Work

def query (q : Ask) : Work q.Answer := Flow.query (S := signature) q

/-- Look at the stage and change it at once. -/
def onStage (f : Stage → α × Stage) : Work α := do
  let s ← query .get
  let (a, s) := f s
  query (.put s)
  return a

def read (f : Stage → α) : Work α := f <$> query .get

def change (f : Stage → Stage) : Work Unit := onStage fun s => ((), f s)

def pause : Work Unit := query .pause

/-- Let some time pass. No time at all is a pause. -/
def sleep (milliseconds : Nat) : Work Unit :=
  if milliseconds = 0 then pause else query (.sleep milliseconds)

theorem sleep_eq_or (ms : Nat) : sleep ms = pause ∨ sleep ms = query (.sleep ms) := by
  by_cases h : ms = 0
  · exact .inl (if_pos h)
  · exact .inr (if_neg h)

def record (i : Incident) : Work Unit := change (·.record i)

def log (e : Log.Entry) : Work Unit := change (·.log e)

-- ---------------------------------------------------------------------------
-- Scripted handlers
-- ---------------------------------------------------------------------------

/-- What the event of a handler asks for. -/
def comply (name : String) (arguments : List Argument) : Work Returned := do
  match name, arguments with
  | "receive_segment", .item (.message m) :: _ =>
    change (·.remember m)
    return .nothing
  | "return_segments", .item (.other key) :: _ =>
    return .items ((← read (·.kept key.plain)).map .message)
  | "return_segments", _ => return .items []
  | _, _ => return .nothing

/-- Do one act after the other, up to the first that fails or returns something. Where nobody awaits, nothing waits. -/
def perform (awaited : Bool) (name : String) (arguments : List Argument) : List Act → Work (Except Fault Given)
  | [] => return .ok (.value .nothing)
  | .comply :: _ => return .ok (.value (← comply name arguments))
  | .fail f :: _ => return .error f
  | .give r _ :: _ => return .ok (.value r)
  | .defer acts :: _ => return .ok (.awaitable (.deferred name arguments acts))
  | .send destination text context callback :: acts => do
    match ← onStage (·.sendOffered destination text context callback) with
    | .ok _ => perform awaited name arguments acts
    | .error f => return .error f
  | .register handlers :: acts => do
    match ← onStage (·.register handlers) with
    | .ok () => perform awaited name arguments acts
    | .error f => return .error f
  | .stop :: acts => do
    change (·.stop)
    perform awaited name arguments acts
  | .wait milliseconds :: acts =>
    if awaited then do
      sleep milliseconds
      record (.resumed name)
      perform awaited name arguments acts
    else perform awaited name arguments acts

/-- One run of a script. -/
def runScript (awaited : Bool) (c : Callable) (script : Script) (arguments : List Argument) :
    Work (Except Fault Given) := do
  record (.called c.name arguments script.label)
  perform awaited c.name arguments (← onStage (·.takeActs c script arguments))

-- ---------------------------------------------------------------------------
-- The application
-- ---------------------------------------------------------------------------

/-- What a handler of the application comes to. -/
def finish (result : Except Fault (Application.Done α)) : Work (Except Fault α) := do
  match result with
  | .ok d =>
    change fun s => { s with store := d.store }.logAll d.log
    return .ok d.answer
  | .error f => return .error f

/-- Have the application answer a request. -/
def runApplication (r : Request Callable) : Work (Except Fault Given) := do
  let s ← query .get
  return (← finish (Application.handle s.now s.store r)).map .value

/-- Give the application notice. -/
def tellApplication (n : Notice Callable) : Work (Except Fault Given) := do
  let s ← query .get
  return (← finish (Application.observe s.store n)).map fun _ => .value .nothing

-- ---------------------------------------------------------------------------
-- Calls
-- ---------------------------------------------------------------------------

/-- Call somebody. A coroutine does not begin before it is awaited; requests are coroutines of the application, and
notices functions. -/
def call (c : Callable) (call : Call) : Work (Except Fault Given) :=
  match c.body with
  | .script script =>
    match script.mode with
    | .plain => runScript false c script call.arguments
    | .coroutine => return .ok (.awaitable (.coroutine c script call.arguments))
  | .application =>
    match call with
    | .request r => return .ok (.awaitable (.application r))
    | .notice n => tellApplication n
    | .plain _ => return .ok (.value .nothing)
  | .nothing => return .error (.notCallable c.name)

/-- Wait until somebody has come to an end. -/
def await : Pending → Work (Except Fault Given)
  | .coroutine c script arguments => runScript true c script arguments
  | .deferred name arguments acts => perform true name arguments acts
  | .application r => runApplication r

/-- Wait for what a call has handed back, if it can be awaited. -/
def attend : Except Fault Given → Work (Except Fault Returned)
  | .error f => return .error f
  | .ok (.value r) => return .ok r
  | .ok (.awaitable p) => return (← await p).map Given.returned

def logFailure (event : String) : Work Unit :=
  log ⟨.error, "core.events", "Handler for '" ++ event ++ "' raised"⟩

/-- Call somebody without caring for the answer: if it can be awaited, it is left to run on its own. Only a
cancellation gets through; any other failure is logged. -/
def fire (event : String) (c : Callable) (call : Call) : Work (Except Cancellation Unit) := do
  match ← Work.call c call with
  | .ok (.value _) => return .ok ()
  | .ok (.awaitable p) => do
    change (·.spawn (.handler event p))
    return .ok ()
  | .error (.cancelled text) => return .error ⟨text⟩
  | .error _ => do
    logFailure event
    return .ok ()

/-- Put a request to the handler of an event. -/
def request (event : EventName) (call : Call) : Work (Except Fault Returned) := do
  match (← query .get).listeners event with
  | some c => attend (← Work.call c call)
  | none => return .error (.noListener event.text)

/-- Give notice to the handler of an event, if there is one. -/
def notify (event : EventName) (call : Call) : Work (Except Cancellation Unit) := do
  match (← query .get).listeners event with
  | some c => fire event.text c call
  | none => return .ok ()

-- ---------------------------------------------------------------------------
-- The modem tool
-- ---------------------------------------------------------------------------

/-- What the modem tool prints when it does what it is asked to. -/
def compliance (command : String) (arguments : List String) : Value :=
  match command with
  | "send" => .list ((List.range (arguments.length / 2)).map fun (n : Nat) =>
      .object [("index", .int (n + 1 : Nat)), ("result", .text "success")])
  | "delete" => .object [("detail", .object (arguments.foldl (fun fs a => Value.setField fs a (.text "ok")) []))]
  | _ => .list []

/-- Send messages in order, up to the first that is refused. -/
def sendAll : List Sending → Work (Except Fault Unit)
  | [] => return .ok ()
  | m :: rest => do
    match ← onStage (·.sendOffered m.destination m.text m.context m.callback) with
    | .ok _ => sendAll rest
    | .error f => return .error f

/-- Run the modem tool. -/
def runModem (command : String) (arguments : List String) : Work (Except Fault Value) := do
  let clock ← read (·.clock)
  record (.modem command arguments clock)
  let reply ← onStage (·.takeReply command)
  match ← sendAll reply.sending with
  | .error f => return .error f
  | .ok () =>
    if let some d := reply.delay then sleep d
    match reply.outcome with
    | .fault f => return .error f
    | .value v => return .ok v
    | .comply => return .ok (compliance command arguments)

-- ---------------------------------------------------------------------------
-- Phases
-- ---------------------------------------------------------------------------

/-- Answer the questions of a phase. -/
def answer : (q : Gateway.Ask Callable) → Work q.Answer
  | .queues => read (·.queues)
  | .update f => change fun s => { s with queues := f s.queues }
  | .modem command arguments => runModem command arguments
  | .request r => request r.event (.request r)
  | .notify n => notify n.event (.notice n)
  | .callback c m r => fire "on_result" c (.plain [.outbound m, .result r])
  | .log e => log e

/-- Run a phase. -/
def phase (p : Phase Callable α) : Work (Except Fault α) :=
  Flow.interpret (S := Gateway.signature Callable) answer p.run

end Work

end SmsRelay.Session
