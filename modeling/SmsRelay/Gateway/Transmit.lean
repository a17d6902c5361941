-- SUMMARY: The transmission phase: a batch is sent, results are announced, and what is unsent goes to the end of the queue.
import SmsRelay.Config
import SmsRelay.Gateway.Phase

/-!
# Transmission

Sending one batch from the front of the outbound queue. A message that the
modem tool reports as sent leaves the queue, whatever the application says to
it; all others go to the end of the queue and are tried again.
-/

namespace SmsRelay.Gateway

open Phase

variable {κ : Type}

/-- The place in a batch of `n` messages that a result speaks of, from zero. -/
def position? (n : Nat) (r : TransmitResult) : Option Nat :=
  if 1 ≤ r.index ∧ r.index ≤ n then some (r.index - 1).toNat else none

theorem position?_lt {n p : Nat} {r : TransmitResult} (h : position? n r = some p) : p < n := by
  simp only [position?] at h
  split at h
  · simp only [Option.some.injEq] at h
    omega
  · simp at h

/-- Tell the application that a message has been sent: the callback of the message first, then the
handler. A refusal is reported back. -/
def announce (m : Outbound κ) (r : TransmitResult) : Phase κ Unit := do
  if let some k := m.callback then callback k m r
  match ← attempt (.transmit m r) with
  | .ok _ => return
  | .error f => notify (.transmitError m f)

/-- Take note of one result for a batch; `sent` holds the places of the messages that have been
sent. A second word on a message that has been sent counts for nothing. -/
def reconcile (batch : List (Outbound κ)) (sent : List Nat) (r : TransmitResult) : Phase κ (List Nat) :=
  let unexpected : Phase κ (List Nat) := do
    log .warning "core.outbound" ("Ignoring transmit result with unexpected index " ++ toString r.index)
    return sent
  match position? batch.length r with
  | none => unexpected
  | some p =>
    match batch[p]? with
    | none => unexpected
    | some m =>
      if p ∈ sent then unexpected
      else if r.succeeded then do
        announce m r
        return p :: sent
      else do
        notify (.transmitError m (.partialTransmission m.destination r.status))
        return sent

/-- The messages of a batch at other places than the given ones. -/
def unsent (batch : List (Outbound κ)) (sent : List Nat) : List (Outbound κ) :=
  (batch.zipIdx.filter fun x => x.2 ∉ sent).map (·.1)

@[simp] theorem unsent_nil_left (sent : List Nat) : unsent ([] : List (Outbound κ)) sent = [] := rfl

/-- Take a batch off the front of the queue and put what is left of it at the end. -/
def requeueOutbound (batch : List (Outbound κ)) (sent : List Nat) (q : Queues κ) : Queues κ :=
  { q with outbound := q.outbound.drop batch.length ++ unsent batch sent }

/-- Send one batch of at most `size` messages. -/
def transmitPhase (size : Value) : Phase κ Unit := do
  let q ← queues
  if q.outbound.isEmpty then return
  let batch := q.outbound.take (← settled (Config.batchCount size))
  let output ← modem "send" (Outbound.arguments batch)
  let results ← settled (TransmitResult.ofOutput output)
  let sent ← results.foldlM (reconcile batch) []
  update (requeueOutbound batch sent)
  let q ← queues
  log .info "core.outbound" ("Transmitted " ++ toString sent.length ++ " of " ++
    toString batch.length ++ " message(s); " ++ toString q.outbound.length ++ " queued")

end SmsRelay.Gateway
