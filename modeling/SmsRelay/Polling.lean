-- SUMMARY: The polling loop as a machine of phases, without a clock.
/-!
# Polling

The polling loop as a machine without a clock. At most one loop is alive; it
runs one cycle after another, and waits between the end of one and the start of
the next. Starting and stopping set what the loop finds when it next looks:
whether polling is on, and whether a wait has been called off. Neither
interrupts a cycle.
-/

namespace SmsRelay

/-- What the polling loop is doing. -/
inductive Polling.Phase where
  /-- There is no loop. -/
  | idle
  /-- The loop has been created but has not run yet. -/
  | launched
  /-- A cycle is underway. -/
  | cycling
  /-- A wait has begun; nobody has looked yet whether it is called off. -/
  | entering
  | parked
  /-- The wait is over, and the loop is about to go on. -/
  | waking
  deriving DecidableEq, Repr

structure Polling where
  /-- Whether polling is on. -/
  active : Bool := false
  /-- Whether waits are called off. -/
  roused : Bool := false
  phase : Polling.Phase := .idle
  /-- How many cycles have ended. -/
  cycles : Nat := 0
  deriving DecidableEq, Repr

namespace Polling

/-- What starting comes to. -/
inductive Started where
  /-- A new loop was created. -/
  | launched
  /-- Polling was on already. -/
  | already
  /-- The loop that was about to end goes on. -/
  | resumed
  deriving DecidableEq, Repr

/-- Turn polling on. -/
def start (p : Polling) : Started × Polling :=
  if p.phase = .idle then (.launched, { p with active := true, roused := false, phase := .launched })
  else if p.active then (.already, p)
  else (.resumed, { p with active := true, roused := false })

/-- Turn polling off, and call the wait off. -/
def stop (p : Polling) : Polling :=
  { p with active := false, roused := true, phase := if p.phase = .parked then .waking else p.phase }

/-- Whether stopping now ends a wait. -/
def endsWait (p : Polling) : Bool := p.phase = .parked

/-- The loop goes on from the start or from a wait: with a cycle, or not at all. -/
def proceed (p : Polling) : Polling :=
  { p with phase := if p.active then .cycling else .idle }

/-- A cycle ends. The loop waits, or comes to its end. -/
def finishCycle (p : Polling) : Polling :=
  { p with cycles := p.cycles + 1, phase := if p.active then .entering else .idle }

/-- The loop is gone, in the middle of a cycle. -/
def abandon (p : Polling) : Polling := { p with phase := .idle }

/-- Look whether a wait that has begun is called off. -/
def look (p : Polling) : Polling :=
  { p with phase := if p.roused then .waking else .parked }

/-- The interval is over. -/
def expire (p : Polling) : Polling :=
  if p.phase = .parked then { p with phase := .waking } else p

@[simp] theorem active_stop (p : Polling) : p.stop.active = false := rfl

@[simp] theorem active_start (p : Polling) : p.start.2.active = true := by
  simp only [start]
  split
  · rfl
  · split <;> simp_all

theorem phase_start_ne_idle (p : Polling) : p.start.2.phase ≠ .idle := by
  simp only [start]
  split
  · simp
  · split <;> simp_all

@[simp] theorem phase_proceed_of_active {p : Polling} (h : p.active = true) : p.proceed.phase = .cycling := by
  simp [proceed, h]

@[simp] theorem phase_proceed_of_not_active {p : Polling} (h : p.active = false) : p.proceed.phase = .idle := by
  simp [proceed, h]

end Polling

end SmsRelay
