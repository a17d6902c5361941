-- SUMMARY: The deletion phase: a batch of places is erased, and the queue is settled with what the tool has confirmed.
import SmsRelay.Config
import SmsRelay.Gateway.Phase
import SmsRelay.Record

/-!
# Deletion

Erasing one batch of places on the device, from the front of the deletion
queue. A place leaves the queue when the modem tool confirms it; all others go
to the end of the queue and are tried again.
-/

namespace SmsRelay.Gateway

open Phase

variable {κ : Type}

/-- Take note of what a report says about one candidate; `failed` holds those that stay. -/
def settle (report : DeletionReport) (failed : List Candidate) (c : Candidate) : Phase κ (List Candidate) :=
  if report.confirms c.location then do
    notify (.deleted c)
    return failed
  else do
    log .debug "core.deletion" ("Location " ++ toString c.location ++ " not deleted (status=" ++
      (report.status? c.location).getD "None" ++ ")")
    return failed ++ [c]

/-- Take a batch off the front of the queue and put what is left of it at the end. -/
def requeueDeletion (batch failed : List Candidate) (q : Queues κ) : Queues κ :=
  { q with deletion := q.deletion.drop batch.length ++ failed }

/-- Erase one batch of at most `size` places. -/
def deletePhase (size : Value) : Phase κ Unit := do
  let q ← queues
  if q.deletion.isEmpty then return
  let batch := q.deletion.take (← settled (Config.batchCount size))
  let output ← modem "delete" (Candidate.arguments batch)
  let report ← settled (DeletionReport.ofOutput output)
  let failed ← batch.foldlM (settle report) []
  update (requeueDeletion batch failed)
  let q ← queues
  log .info "core.deletion" ("Deleted " ++ toString (batch.length - failed.length) ++ " of " ++
    toString batch.length ++ " location(s); " ++ toString q.deletion.length ++ " queued")

end SmsRelay.Gateway
