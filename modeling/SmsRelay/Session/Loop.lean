-- SUMMARY: The loop that gives everybody in a session their turn, on a clock of its own.
import SmsRelay.Session.Handlers

/-!
# The loop of a session

Who goes when. All that is ready waits in one queue; whoever is at its front
runs until it pauses, sleeps, waits or ends. The clock stands still while
anybody is ready, and then moves on to the next thing that is due.
-/

namespace SmsRelay.Session

-- ---------------------------------------------------------------------------
-- Going on until a halt
-- ---------------------------------------------------------------------------

/-- Where a piece of work halts. -/
inductive Halt (α : Type) where
  | done (a : α)
  | paused (rest : Work α)
  | asleep (milliseconds : Nat) (rest : Work α)
  | joining (rest : Except Fault Unit → Work α)

/-- Go on with a piece of work until it halts. -/
def advance : Work α → Stage → Halt α × Stage
  | .done a, s => (.done a, s)
  | .ask .get next, s => advance (next s) s
  | .ask (.put s) next, _ => advance (next ()) s
  | .ask .pause next, s => (.paused (next ()), s)
  | .ask (.sleep ms) next, s => (.asleep ms (next ()), s)
  | .ask .join next, s => (.joining next, s)

@[simp] theorem advance_done (a : α) (s : Stage) : advance (.done a) s = (.done a, s) := rfl

-- ---------------------------------------------------------------------------
-- The queue
-- ---------------------------------------------------------------------------

/-- Something that waits for its turn. -/
inductive Turn (α : Type) where
  /-- The main line of the session. -/
  | main (w : Work α)
  /-- A cycle of the polling loop. -/
  | cycle (w : Work (Except Fault Unit))
  /-- A handler that nobody waits for. -/
  | handler (event : String) (w : Work (Except Fault Given))
  /-- Such a handler has failed. -/
  | failed (event : String)
  /-- The polling loop goes on. -/
  | proceed
  /-- The polling loop's wait begins. -/
  | look
  /-- The polling loop's wait has ended; so many turns later the loop goes on. -/
  | ending (turns : Nat)
  /-- The interval between two cycles is over. -/
  | expire
  /-- A sleep is over: the sleeper is ready. -/
  | awake (t : Turn α)

/-- What is the same throughout a session: what a cycle does, and the time between cycles, if a
wait ever ends by itself. -/
structure Setting where
  cycle : Work (Except Fault Unit)
  interval : Option Nat

structure Loop (α : Type) where
  stage : Stage
  ready : List (Turn α) := []
  /-- What is due later, the earliest first. -/
  timers : List (Nat × Turn α) := []
  /-- The main line, when it waits for the end of the polling loop. -/
  joiner : Option (Except Fault Unit → Work α) := none
  /-- How the last polling loop ended. -/
  outcome : Except Fault Unit := .ok ()

namespace Loop

variable {α : Type}

def push (t : Turn α) (l : Loop α) : Loop α := { l with ready := l.ready ++ [t] }

/-- Put a turn among the timers, after those that are due at the same time. -/
def insertTimer (time : Nat) (t : Turn α) : List (Nat × Turn α) → List (Nat × Turn α)
  | [] => [(time, t)]
  | x :: xs => if time < x.1 then (time, t) :: x :: xs else x :: insertTimer time t xs

def schedule (delay : Nat) (t : Turn α) (l : Loop α) : Loop α :=
  { l with timers := insertTimer (l.stage.clock + delay) t l.timers }

/-- The turn of something that has been spawned. -/
def turnOf : Spawned → Turn α
  | .handler event p => .handler event (Work.await p)
  | .loop => .proceed
  | .wake => .ending 2

/-- Put what has been spawned into the queue. -/
def absorb (l : Loop α) : Loop α :=
  { l with
    ready := l.ready ++ l.stage.spawned.reverse.map turnOf
    stage := { l.stage with spawned := [] } }

def log (e : Log.Entry) (l : Loop α) : Loop α := { l with stage := l.stage.log e }

def schedulerLog (level : Log.Level) (text : String) (l : Loop α) : Loop α :=
  { l with stage := l.stage.schedulerLog level text }

def setPolling (p : Polling) (l : Loop α) : Loop α := { l with stage := { l.stage with polling := p } }

-- ---------------------------------------------------------------------------
-- The polling loop
-- ---------------------------------------------------------------------------

/-- The polling loop has ended: whoever waits for that is ready. -/
def finish (outcome : Except Fault Unit) (l : Loop α) : Loop α :=
  match l.joiner with
  | none => { l with outcome }
  | some rest => { l with outcome, joiner := none }.push (.main (rest outcome))

/-- The polling loop comes to its end. -/
def conclude (l : Loop α) : Loop α :=
  (l.schedulerLog .info ("Polling stopped after " ++ toString l.stage.polling.cycles ++ " cycle(s)")).finish
    (.ok ())

/-- A cycle has ended: the polling loop waits for the next, or comes to its end. -/
def afterCycle (setting : Setting) (l : Loop α) : Loop α :=
  let l := l.setPolling l.stage.polling.finishCycle
  if l.stage.polling.phase = .idle then l.conclude
  else
    let l := match setting.interval with
      | some ms => l.schedule ms .expire
      | none => l
    l.push .look

/-- Go on with a cycle. A cancellation ends the polling loop. -/
def goOnCycle (setting : Setting) (w : Work (Except Fault Unit)) (l : Loop α) : Loop α :=
  let (halt, stage) := advance w l.stage
  let l := absorb { l with stage }
  match halt with
  | .done (.ok ()) => l.afterCycle setting
  | .done (.error f) =>
    if f.isCancellation then (l.setPolling l.stage.polling.abandon).finish (.error f)
    else (l.schedulerLog .error "Polling cycle failed").afterCycle setting
  | .paused rest => l.push (.cycle rest)
  | .asleep ms rest => l.schedule ms (.awake (.cycle rest))
  | .joining rest => l.push (.cycle (rest l.outcome))

def Turn.isExpiry : Turn α → Bool
  | .expire => true
  | _ => false

/-- The polling loop goes on: with a cycle, or not at all. -/
def proceed (setting : Setting) (l : Loop α) : Loop α :=
  let l := l.setPolling l.stage.polling.proceed
  if l.stage.polling.phase = .idle then l.conclude else l.goOnCycle setting setting.cycle

/-- A wait is over, and its timer with it. -/
def endWait (setting : Setting) (l : Loop α) : Loop α :=
  proceed setting { l with
    ready := l.ready.filter (!Turn.isExpiry ·), timers := l.timers.filter (!Turn.isExpiry ·.2) }

-- ---------------------------------------------------------------------------
-- Turns
-- ---------------------------------------------------------------------------

/-- Go on with a handler that nobody waits for. -/
def goOnHandler (event : String) (w : Work (Except Fault Given)) (l : Loop α) : Loop α :=
  let (halt, stage) := advance w l.stage
  let l := absorb { l with stage }
  match halt with
  | .done (.ok _) => l
  | .done (.error f) => if f.isCancellation then l else l.push (.failed event)
  | .paused rest => l.push (.handler event rest)
  | .asleep ms rest => l.schedule ms (.awake (.handler event rest))
  | .joining rest => l.push (.handler event (rest l.outcome))

/-- Go on with the main line; its result, if it ends. -/
def goOnMain (w : Work α) (l : Loop α) : α ⊕ Loop α :=
  let (halt, stage) := advance w l.stage
  let l := absorb { l with stage }
  match halt with
  | .done a => .inl a
  | .paused rest => .inr (l.push (.main rest))
  | .asleep ms rest => .inr (l.schedule ms (.awake (.main rest)))
  | .joining rest =>
    if l.stage.polling.phase = .idle then .inr { l with ready := .main (rest l.outcome) :: l.ready }
    else .inr { l with joiner := some rest }

/-- Take one turn. -/
def take (setting : Setting) (t : Turn α) (l : Loop α) : α ⊕ Loop α :=
  match t with
  | .main w => l.goOnMain w
  | .cycle w => .inr (l.goOnCycle setting w)
  | .handler event w => .inr (l.goOnHandler event w)
  | .failed event => .inr (l.log ⟨.error, "core.events", "Handler for '" ++ event ++ "' raised"⟩)
  | .proceed => .inr (l.proceed setting)
  | .look =>
    let l := l.setPolling l.stage.polling.look
    .inr (if l.stage.polling.phase = .waking then l.push (.ending 1) else l)
  | .ending 0 => .inr (l.endWait setting)
  | .ending (n + 1) => .inr (l.push (.ending n))
  | .expire =>
    if l.stage.polling.phase = .parked then
      .inr ((l.setPolling l.stage.polling.expire).push (.ending 3))
    else .inr l
  | .awake t => .inr (l.push t)

/-- Move the clock on to the next thing that is due, and make ready all that is due then. -/
def tick (l : Loop α) : Option (Loop α) :=
  match l.timers with
  | [] => none
  | (time, _) :: _ =>
    let clock := max l.stage.clock time
    some { l with
      stage := { l.stage with clock }
      ready := (l.timers.filter (·.1 ≤ clock)).map (·.2)
      timers := l.timers.filter (clock < ·.1) }

/-- Take at most so many turns. No result is given if the main line has not ended by then, or if
nothing will ever be due. -/
def run (setting : Setting) : (turns : Nat) → Loop α → Option α
  | 0, _ => none
  | turns + 1, l =>
    match l.ready with
    | t :: rest =>
      match take setting t { l with ready := rest } with
      | .inl a => some a
      | .inr l => run setting turns l
    | [] => (tick l).bind (run setting turns)

end Loop

end SmsRelay.Session
