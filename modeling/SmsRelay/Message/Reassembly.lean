-- SUMMARY: Parts in ascending order, and the message that they make up.
import SmsRelay.Fault
import SmsRelay.Message

/-!
# Reassembly

Putting a message together from its parts. The parts at hand are kept in
ascending order, one for each number; a later copy of a part replaces an
earlier one. They make up the message once there are as many as it has parts.
-/

namespace SmsRelay

-- ---------------------------------------------------------------------------
-- Parts in order
-- ---------------------------------------------------------------------------

namespace Message

/-- Put a part into its place among parts in ascending order. A part with the same number gives
way to it. -/
def insertPart (m : Message) : List Message → List Message
  | [] => [m]
  | p :: ps =>
    if m.part < p.part then m :: p :: ps
    else if m.part = p.part then m :: ps
    else p :: insertPart m ps

/-- Parts in ascending order, the last copy of each. -/
def orderParts (ps : List Message) : List Message :=
  ps.foldl (fun acc p => insertPart p acc) []

@[simp] theorem insertPart_nil (m : Message) : insertPart m [] = [m] := rfl

theorem insertPart_ne_nil (m : Message) (ps : List Message) : insertPart m ps ≠ [] := by
  cases ps with
  | nil => simp
  | cons p ps =>
    simp only [insertPart]
    split
    · simp
    · split <;> simp

@[simp] theorem orderParts_nil : orderParts [] = [] := rfl

theorem orderParts_append_singleton (ps : List Message) (m : Message) :
    orderParts (ps ++ [m]) = insertPart m (orderParts ps) := by
  simp [orderParts, List.foldl_append]

/-- The message that parts in order make up. Sender, header and number of parts are those of `m`,
place and service centre those of the first part. -/
def compose (m : Message) (first : Message) (parts : List Message) : Message :=
  { sender := m.sender
    text := String.join (parts.map text)
    location := first.location
    timestamp := first.timestamp <|> m.timestamp
    total := m.total
    part := 1
    header := m.header
    smsc := first.smsc
    parts := parts }

/-- The message of which `m` is a part, if `m` and the stored parts are all of it. -/
def reassemble (m : Message) (stored : List Message) : Option Message :=
  match orderParts (stored ++ [m]) with
  | [] => none
  | first :: rest =>
    if ((first :: rest).length : Int) < m.total then none
    else some (m.compose first (first :: rest))

@[simp] theorem key_compose (m first : Message) (parts : List Message) :
    (m.compose first parts).key = m.key := rfl

end Message

-- ---------------------------------------------------------------------------
-- Stored parts, as the application returns them
-- ---------------------------------------------------------------------------

/-- One item of a collection that an application returns. -/
inductive Item where
  | message (m : Message)
  | other (v : Value)

/-- What an application returns from an event. -/
inductive Returned where
  | value (v : Value)
  | items (is : List Item)
  /-- Something that can be read only once, item by item. -/
  | stream
  /-- Something that somebody would have to await. -/
  | awaitable

namespace Returned

/-- Somebody would have to await it. -/
def isAwaitable : Returned → Bool
  | awaitable => true
  | value _ | items _ | stream => false

/-- No answer at all. -/
def nothing : Returned := .value .null

/-- The parts with the given key among the items; every item must be a message. -/
def selectParts (key : String) : List Item → Except Fault (List Message)
  | [] => .ok []
  | .other v :: _ => .error (.badSegment v.kind)
  | .message m :: is => do
    let ms ← selectParts key is
    return if m.key = key then m :: ms else ms

/-- The stored parts with the given key. Nothing returned means that there are none. -/
def storedParts (key : String) : Returned → Except Fault (List Message)
  | .value .null => .ok []
  | .value (.list vs) => selectParts key (vs.map .other)
  | .items is => selectParts key is
  | _ => .error .badSegments

@[simp] theorem storedParts_nothing (key : String) : nothing.storedParts key = .ok [] := rfl

theorem selectParts_messages (key : String) (ms : List Message) :
    selectParts key (ms.map .message) = .ok (ms.filter (·.key = key)) := by
  induction ms with
  | nil => rfl
  | cons m ms ih =>
    simp only [List.map_cons, selectParts, ih, List.filter_cons]
    by_cases h : m.key = key <;> simp [h, bind, Except.bind, pure, Except.pure]

end Returned

end SmsRelay
