-- SUMMARY: What the commands do, over any monad in which the modem tool is run.
import SmsRelay.Application
import SmsRelay.Banner
import SmsRelay.CommandLine
import SmsRelay.Gateway.Cycle
import SmsRelay.Modem.Tool
import SmsRelay.Settings

/-!
# The program

What the commands do: send one message and run one cycle, list the inbox, or
poll. The application that keeps its messages in the store answers the gateway;
the modem tool is run by the surroundings, in a monad of their choice.
-/

namespace SmsRelay.Program

open Gateway

/-- What a command works on. -/
structure World where
  store : Store
  queues : Queues Unit := {}
  /-- Where the log goes. -/
  log : Log.Setup := .silent

/-- What a command needs from outside. -/
structure Surroundings (m : Type → Type) where
  /-- Run the modem tool. -/
  run : Modem.Tool → String → List String → m (Except Fault Value)
  /-- The time of day. -/
  now : m String
  print : String → m Unit
  note : Log.Setup → Log.Entry → m Unit
  /-- Let the time between two cycles pass. -/
  wait : Config → m Unit
  /-- The current directory. -/
  directory : String
  /-- The search path for programs. -/
  path : Value

variable {m : Type → Type} [Monad m]

abbrev Act (m : Type → Type) := StateT World m

def print (s : Surroundings m) (text : String) : Act m Unit := monadLift (s.print text)

def printLine (s : Surroundings m) (text : String) : Act m Unit := print s (text ++ "\n")

/-- Write to the log. -/
def note (s : Surroundings m) (es : List Log.Entry) : Act m Unit := do
  let setup := (← get).log
  es.forM fun e => monadLift (s.note setup e)

/-- What a handler of the application comes to. -/
def finish (s : Surroundings m) (result : Except Fault (Application.Done α)) : Act m (Except Fault α) := do
  match result with
  | .ok d =>
    modify fun w => { w with store := d.store }
    note s d.log
    return .ok d.answer
  | .error f => return .error f

/-- Give the application notice. What goes wrong with it is logged. -/
def notify (s : Surroundings m) (n : Notice Unit) : Act m Unit := do
  match ← finish s (Application.observe (← get).store n) with
  | .ok () => return
  | .error _ => note s [⟨.error, "core.events", "Handler for '" ++ n.event.text ++ "' raised"⟩]

/-- Answer the questions of a phase. -/
def answer (s : Surroundings m) (tool : Modem.Tool) : (q : Gateway.Ask Unit) → Act m q.Answer
  | .queues => return (← get).queues
  | .update f => modify fun w => { w with queues := f w.queues }
  | .modem command arguments => monadLift (s.run tool command arguments)
  | .request r => do
    let now ← monadLift s.now
    finish s (Application.handle now (← get).store r)
  | .notify n => do
    notify s n
    return .ok ()
  | .callback _ msg r => do
    printLine s ("Sent to " ++ msg.destination ++ " (status: " ++ r.status ++ ")")
    return .ok ()
  | .log e => note s [e]

def phase (s : Surroundings m) (tool : Modem.Tool) (p : Phase Unit α) : Act m (Except Fault α) :=
  Flow.interpret (S := Gateway.signature Unit) (answer s tool) p.run

-- ---------------------------------------------------------------------------
-- Commands
-- ---------------------------------------------------------------------------

/-- Send one message and run one cycle. -/
def send (s : Surroundings m) (tool : Modem.Tool) (config : Config) (destination text : Value) : Act m (Except Fault Unit) := do
  match Outbound.ofArguments destination text (.callable ()) .nothing with
  | .error f => return .error f
  | .ok msg =>
    modify fun w => { w with queues := enqueueOutbound msg w.queues }
    match ← phase s tool (runCycle config) with
    | .error f => return .error f
    | .ok report =>
      let waiting := (← get).queues.outbound.length
      if waiting ≠ 0 then printLine s ("Not sent yet; " ++ toString waiting ++ " message(s) still queued.")
      if let some f := report.transmit then printLine s ("Transmit failed: " ++ f.message)
      return .ok ()

/-- The line for a received message. -/
def inboxLine (r : Store.Received) : String :=
  let stamp := match r.timestamp with
    | some t => if t = "" then r.receivedAt else t
    | none => r.receivedAt
  toString r.id ++ ". " ++ stamp ++ " | " ++ r.sender ++ " | " ++ r.text

/-- List received messages, the newest first. -/
def inbox (s : Surroundings m) (limit : Int) : Act m (Except Fault Unit) := do
  match (← get).store.listReceived (.int limit) with
  | .error f => return .error f
  | .ok [] =>
    printLine s "Inbox is empty."
    return .ok ()
  | .ok rs =>
    print s (String.join (rs.map fun r => inboxLine r ++ "\n"))
    return .ok ()

/-- The lines that the start of polling writes to the log. -/
def greeting (config : Config) : List Log.Entry :=
  [⟨.info, "app", "Starting smsrelay (interval=" ++ config.interval.plain ++ "s, transmit batch=" ++
      config.transmitBatch.plain ++ ", delete batch=" ++ config.deleteBatch.plain ++ ")"⟩,
    ⟨.info, "core.scheduler", "Polling started (interval=" ++ config.interval.plain ++ "s)"⟩]

/-- Run so many cycles and stop. -/
def poll (s : Surroundings m) (tool : Modem.Tool) (config : Config) : (cycles : Nat) → Act m (Except Fault Unit)
  | 0 => return .ok ()
  | n + 1 => do
    match ← phase s tool (runCycle config) with
    | .error f => return .error f
    | .ok _ =>
      if n ≠ 0 then monadLift (s.wait config)
      poll s tool config n

/-- Make ready for work with the modem: the log is set up, the tables are created, and the tool is
known by name and search path. -/
def prepare (s : Surroundings m) (root : String) (settings : Settings) : Act m (Except Fault Modem.Tool) := do
  match Log.Setup.ofValue root settings.logging with
  | .error f => return .error f
  | .ok log =>
    modify fun w => { w with store := w.store.initialise, log }
    return Modem.Tool.ofConfig s.directory s.path settings.gateway

/-- Carry a command out. `cycles` says how often the modem is polled before polling is stopped. -/
def perform (s : Surroundings m) (root : String) (settings : Settings) (cycles : Nat) :
    Command → Act m (Except Fault Unit)
  | .inbox limit => do
    modify fun w => { w with store := w.store.initialise }
    inbox s limit
  | .send destination text => do
    match ← prepare s root settings with
    | .error f => return .error f
    | .ok tool => send s tool settings.gateway destination text
  | .run => do
    print s banner
    match ← prepare s root settings with
    | .error f => return .error f
    | .ok tool =>
      note s (greeting settings.gateway)
      let result ← poll s tool settings.gateway cycles
      note s [⟨.info, "core.scheduler", "Polling stopped after " ++ toString cycles ++ " cycle(s)"⟩]
      return result

/-- How a program ends. -/
inductive Ending where
  | done
  | refused (r : CommandLine.Refusal)
  | failed (f : Fault)

/-- Read a command line and carry its command out. -/
def run (s : Surroundings m) (root : String) (settings : Settings) (cycles : Nat) (arguments : List String) :
    Act m Ending := do
  match CommandLine.read arguments with
  | .error r => return .refused r
  | .ok command =>
    match ← perform s root settings cycles command with
    | .ok () => return .done
    | .error f => return .failed f

end SmsRelay.Program
