-- SUMMARY: The reception phase: records are read, parts are kept and put together, and messages are offered to the application.
import SmsRelay.Gateway.Phase
import SmsRelay.Record

/-!
# Reception

Reading what is on the device and offering it to the application. A part of a
message goes to the application, which keeps it; together with the parts that
the application returns it may make up the message. Messages that the
application accepts may be erased from the device.
-/

namespace SmsRelay.Gateway

open Phase

variable {κ : Type}

-- ---------------------------------------------------------------------------
-- Delivery
-- ---------------------------------------------------------------------------

def enqueueDeletion (m : Message) (q : Queues κ) : Queues κ :=
  { q with deletion := q.deletion ++ m.candidates }

/-- Offer a message to the application. One that is refused stays on the device. -/
def deliver (m : Message) : Phase κ Unit := do
  match ← attempt (.receive m) with
  | .ok _ => update (enqueueDeletion m)
  | .error (.noListener e) => notify (.receiveError (.message m) (.noListener e))
  | .error f =>
    log .debug "core.inbound" ("Delivery of message from " ++ m.sender ++ " deferred: " ++ f.message)

/-- Offer every message in the queue to the application. -/
def deliverPhase : Phase κ Unit := do
  let delivering := (← queues).inbound
  delivering.forM deliver
  update fun q => { q with inbound := q.inbound.drop delivering.length }

-- ---------------------------------------------------------------------------
-- Retrieval
-- ---------------------------------------------------------------------------

def enqueueInbound (m : Message) (q : Queues κ) : Queues κ := { q with inbound := q.inbound ++ [m] }

/-- Have the application keep a part, and put the message together if all parts are there. -/
def collectPart (m : Message) : Phase κ (Option Message) := do
  discard (request (.receiveSegment m))
  let returned ← request (.returnSegments m.key)
  let stored ← settled (returned.storedParts m.key)
  return m.reassemble stored

/-- What came of an action: a result, or a fault that is no cancellation. -/
def guarded (p : Phase κ α) : Phase κ (Except Fault α) :=
  ExceptT.mk <| (fun
    | .ok a => .ok (.ok a)
    | .error f => if f.isCancellation then .error f else .ok (.error f)) <$> p.run

/-- Take in a part of a message. `completed` holds the keys of the groups that have been completed in
this phase; a part of one of them is passed over. -/
def receivePart (completed : List String) (m : Message) : Phase κ (List String) := do
  if m.key ∈ completed then return completed
  match ← guarded (collectPart m) with
  | .error f => do
    log .warning "core.inbound" ("Segment " ++ toString m.part ++ " of " ++ m.key ++
      " not processed: " ++ f.message)
    notify (.receiveError (.message m) f)
    return completed
  | .ok none => return completed
  | .ok (some whole) => do
    update (enqueueInbound whole)
    log .info "core.inbound" ("Reassembled " ++ toString whole.total ++ "-part message " ++ whole.key)
    return m.key :: completed

/-- The message that a record describes, with a note on a timestamp that was left out. -/
def readRecord (record : Value) : Phase κ (Except Fault Message) := do
  let reading := Record.read record
  if let some text := reading.ignored then
    log .debug "core.records" ("Ignoring unparseable timestamp " ++ Text.quote text)
  return reading.result

/-- Take in one record. -/
def receiveRecord (completed : List String) (record : Value) : Phase κ (List String) := do
  match ← readRecord record with
  | .ok m =>
    if m.isPart then receivePart completed m
    else do
      update (enqueueInbound m)
      return completed
  | .error f =>
    if Record.isSkipped f then do
      log .warning "core.inbound" ("Skipping malformed message record: " ++ f.message)
      notify (.receiveError (.other record) f)
      return completed
    else throw f

/-- Read what is on the device, and offer it to the application. -/
def receivePhase : Phase κ Unit := do
  let output ← modem "retrieve" []
  let records ← settled (Record.ofOutput output)
  discard (records.foldlM receiveRecord [])
  if !records.isEmpty then
    let q ← queues
    log .info "core.inbound" ("Retrieved " ++ toString records.length ++ " record(s); " ++
      toString q.inbound.length ++ " message(s) ready for delivery")
  deliverPhase

end SmsRelay.Gateway
