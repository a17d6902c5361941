-- SUMMARY: The application's database: the table of parts, the inbox, and the operations on them.
import SmsRelay.Message.Unchecked
import SmsRelay.Store.Cell
import SmsRelay.Timestamp.Iso

/-!
# Store

The application's database: parts of messages that wait for the other parts,
one row for each part of a group, and the inbox, a list of received messages
that only grows. An operation that fails leaves the store as it is.
-/

namespace SmsRelay

namespace Store

/-- A stored part of a message. -/
structure Segment where
  key : String
  part : Cell
  location : Cell
  sender : String
  text : String
  header : Cell
  total : Cell
  timestamp : Option String
  smsc : Option String
  deriving Inhabited

/-- A received message. -/
structure Received where
  id : Nat
  sender : String
  text : String
  segments : Cell
  locations : List Value
  timestamp : Option String
  receivedAt : String
  deriving Inhabited

end Store

structure Store where
  /-- Whether the tables have been created. -/
  ready : Bool := false
  segments : List Store.Segment := []
  /-- The newest message first. -/
  inbox : List Store.Received := []
  deriving Inhabited

namespace Store

/-- Create the tables that are missing. -/
def initialise (s : Store) : Store := { s with ready := true }

/-- Refuse to work without tables. -/
def require (s : Store) (table : String) : Except Fault Unit :=
  if s.ready then .ok () else .error (.noTable table)

/-- What a column must hold that may not be empty. -/
def notNull (table column : String) : Option α → Except Fault α
  | some a => .ok a
  | none => .error (.nullColumn table column)

/-- A cell in a column for integers that may not be empty. -/
def integerCell (table column : String) (c : Cell) : Except Fault Cell :=
  notNull table column (match c.inIntegerColumn with
    | .null => none
    | c => some c)

@[simp] theorem require_ready (segments : List Segment) (inbox : List Received) (table : String) :
    (Store.mk true segments inbox).require table = .ok () := rfl

@[simp] theorem integerCell_int (table column : String) (n : Int) :
    integerCell table column (.int n) = .ok (.int n) := rfl

-- ---------------------------------------------------------------------------
-- Waiting parts
-- ---------------------------------------------------------------------------

/-- The row for a part with the stored form of its timestamp. -/
def Segment.ofMessage (timestamp : Option String) (m : Message.Unchecked) : Except Fault Segment := do
  let _ ← Cell.ofText m.key
  let part ← Cell.ofValue 2 m.part
  let location ← Cell.ofValue 3 m.location
  let sender ← Cell.ofValue 4 m.sender
  let text ← Cell.ofValue 5 m.text
  let header ← Cell.ofValue 6 m.header
  let total ← Cell.ofValue 7 m.total
  let smsc ← Cell.ofValue 9 m.smsc
  return {
    key := m.key
    part := ← integerCell "segments" "segment" part
    location := ← integerCell "segments" "location" location
    sender := ← notNull "segments" "sender" sender.inTextColumn
    text := ← notNull "segments" "text" text.inTextColumn
    header := header.inIntegerColumn
    total := ← integerCell "segments" "total_segments" total
    timestamp
    smsc := smsc.inTextColumn }

/-- Whether two rows are for the same part of the same group. -/
def Segment.samePart (a b : Segment) : Bool := a.key = b.key && a.part.same b.part

/-- A row after another copy of its part has come: place, text and timestamp are those of the new
copy. -/
def Segment.refresh (old new : Segment) : Segment :=
  { old with location := new.location, text := new.text, timestamp := new.timestamp }

/-- Put a row into the table: in place of the row for the same part, or at the end. -/
def upsert (row : Segment) (rows : List Segment) : List Segment :=
  if rows.any (·.samePart row) then
    rows.map fun r => if r.samePart row then r.refresh row else r
  else rows ++ [row]

/-- Keep a part until its group is complete. -/
def saveSegment (s : Store) (m : Message.Unchecked) : Except Fault Store := do
  let timestamp ← m.timestamp.iso?
  s.require "segments"
  let row ← Segment.ofMessage timestamp m
  return { s with segments := upsert row s.segments }

/-- The message that a row holds. -/
def Segment.message (r : Segment) : Except Fault Message := do
  let location ← r.location.toValue.toInteger
  let total ← r.total.toValue.toInteger
  let part ← r.part.toValue.toInteger
  return {
    sender := r.sender
    text := r.text
    location
    timestamp := r.timestamp.bind fun s => Timestamp.Iso.read s.toList
    total
    part
    header := r.header.toValue
    smsc := (r.smsc.map Value.text).getD .null }

/-- The rows of one group, in the order of their parts. -/
def group (s : Store) (key : String) : List Segment :=
  (s.segments.filter (·.key = key)).mergeSort fun a b => a.part.le b.part

/-- The waiting parts of a group, in order. -/
def loadSegments (s : Store) (key : Value) : Except Fault (List Message) := do
  s.require "segments"
  let key ← Cell.ofValue 1 key
  match key.inTextColumn with
  | some key => (s.group key).mapM Segment.message
  | none => return []

/-- Drop the parts that came from a place on the device, and count them. -/
def forget (s : Store) (location : Value) : Except Fault (Nat × Store) := do
  s.require "segments"
  let location := (← Cell.ofValue 1 location).inIntegerColumn
  let (gone, kept) := s.segments.partition fun r => r.location.same location
  return (gone.length, { s with segments := kept })

-- ---------------------------------------------------------------------------
-- The inbox
-- ---------------------------------------------------------------------------

/-- The row for a received message with its places and the stored form of its timestamp. -/
def Received.ofMessage (id : Nat) (receivedAt : String) (locations : List Value) (timestamp : Option String)
    (m : Message.Unchecked) : Except Fault Received := do
  let sender ← Cell.ofValue 1 m.sender
  let text ← Cell.ofValue 2 m.text
  let total ← Cell.ofValue 3 m.total
  return {
    id
    sender := ← notNull "inbox" "sender" sender.inTextColumn
    text := ← notNull "inbox" "text" text.inTextColumn
    segments := ← integerCell "inbox" "segments" total
    locations
    timestamp
    receivedAt }

/-- The id of the next message: one above all that have been given. -/
def nextId (s : Store) : Nat := (s.inbox.map Received.id).foldr max 0 + 1

/-- The parts that go on waiting when a message has been received: not those of its own group. -/
def stillWaiting (s : Store) (m : Message.Unchecked) : Except Fault (List Segment) := do
  if ← m.isPart then
    let _ ← Cell.ofText m.key
    return s.segments.filter (·.key ≠ m.key)
  else return s.segments

/-- Enter a message into the inbox. The parts of its group wait no longer. -/
def saveReceived (s : Store) (receivedAt : String) (m : Message.Unchecked) : Except Fault (Nat × Store) := do
  let locations ← m.locations
  let timestamp ← m.timestamp.iso?
  s.require "inbox"
  let row ← Received.ofMessage s.nextId receivedAt locations timestamp m
  let segments ← s.stillWaiting m
  return (s.nextId, { s with segments, inbox := row :: s.inbox })

/-- How many messages a limit lets through; `none` for all of them. -/
def readLimit : Cell → Except Fault (Option Nat)
  | c =>
    match c.inIntegerColumn with
    | .int n => .ok (if n < 0 then none else some n.toNat)
    | _ => .error .typeMismatch

/-- The received messages, the newest first, and no more than a limit allows. -/
def listReceived (s : Store) (limit : Value) : Except Fault (List Received) := do
  s.require "inbox"
  if limit.isNull then return s.inbox
  match ← readLimit (← Cell.ofValue 1 limit) with
  | some n => return s.inbox.take n
  | none => return s.inbox

end Store

end SmsRelay
