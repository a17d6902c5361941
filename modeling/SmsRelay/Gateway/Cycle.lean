-- SUMMARY: One polling cycle: its three phases, and the report of what has become of them.
import SmsRelay.Gateway.Delete
import SmsRelay.Gateway.Receive
import SmsRelay.Gateway.Transmit

/-!
# Polling cycles

One cycle is a transmission, a reception and a deletion. A phase that fails is
reported, and the next one runs all the same.
-/

namespace SmsRelay.Gateway

open Phase

variable {κ : Type}

/-- How the phases of a cycle ended. -/
structure CycleReport where
  transmit : Option Fault := none
  receive : Option Fault := none
  delete : Option Fault := none
  deriving DecidableEq, Repr

def CycleReport.isClean (r : CycleReport) : Bool :=
  r.transmit.isNone && r.receive.isNone && r.delete.isNone

/-- Run a phase, and report its fault. -/
def runPhase (name : String) (phase : Phase κ Unit) : Phase κ (Option Fault) := do
  match ← guarded phase with
  | .ok () => return none
  | .error f => do
    log .error "core.gateway" (name ++ " phase failed: " ++ f.message)
    return some f

/-- Run one cycle. -/
def runCycle (config : Config) : Phase κ CycleReport := do
  let transmit ← runPhase "Transmit" (transmitPhase config.transmitBatch)
  let receive ← runPhase "Receive" receivePhase
  let delete ← runPhase "Delete" (deletePhase config.deleteBatch)
  let report : CycleReport := { transmit, receive, delete }
  if !report.isClean then log .warning "core.gateway" "Polling cycle finished with errors"
  return report

/-- Queue a message for sending. -/
def enqueueOutbound (m : Outbound κ) (q : Queues κ) : Queues κ := { q with outbound := q.outbound ++ [m] }

end SmsRelay.Gateway
