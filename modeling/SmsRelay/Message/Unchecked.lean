-- SUMMARY: Messages with fields of any kind, as an application may build them.
import SmsRelay.Message
import SmsRelay.Value.Number

/-!
# Unchecked messages

A message whose fields hold any values, as an application may build it. The
store takes such messages and lets its columns decide what they accept; before
that it asks for the stored form of the timestamp and for the places of the
parts, and a value that is no timestamp or no messages has none.
-/

namespace SmsRelay

/-- What may stand where a message has its timestamp. -/
inductive Message.Stamp where
  | moment (t : Timestamp)
  | value (v : Value)

/-- What may stand where a message has its parts. -/
inductive Message.Parts (μ : Type) where
  | messages (ms : List μ)
  | value (v : Value)

structure Message.Unchecked where
  sender : Value
  text : Value
  location : Value
  timestamp : Message.Stamp := .value .null
  total : Value := .int 1
  part : Value := .int 1
  header : Value := .null
  smsc : Value := .null
  parts : Message.Parts Message.Unchecked := .messages []

instance : Inhabited Message.Unchecked := ⟨{ sender := .null, text := .null, location := .null }⟩

namespace Message.Stamp

/-- The timestamp that a message may have. -/
def ofTimestamp : Option Timestamp → Stamp
  | some t => moment t
  | none => value .null

/-- The timestamp, if there may be one in a message. -/
def check? : Stamp → Option (Option Timestamp)
  | moment t => some (some t)
  | value .null => some none
  | value _ => none

/-- The stored form of a timestamp. Values that are not given have none. -/
def iso? : Stamp → Except Fault (Option String)
  | moment t => .ok (some t.iso)
  | value v => if v.isGiven then .error (.noAttribute v.kind "isoformat") else .ok none

@[simp] theorem check?_ofTimestamp (t : Option Timestamp) : (ofTimestamp t).check? = some t := by cases t <;> rfl

@[simp] theorem iso?_ofTimestamp (t : Option Timestamp) : (ofTimestamp t).iso? = .ok (t.map Timestamp.iso) := by
  cases t <;> rfl

end Message.Stamp

/-- Why a value does not tell the places of messages. -/
def Message.Parts.fault : Value → Fault
  | .list (v :: _) => .noAttribute v.kind "location"
  | .text _ => .noAttribute "str" "location"
  | .object _ => .noAttribute "str" "location"
  | v => .notIterable v.kind

namespace Message

mutual

/-- A message with its checks forgotten. -/
def unchecked (m : Message) : Unchecked :=
  match m with
  | ⟨sender, text, location, timestamp, total, part, header, smsc, parts⟩ =>
    { sender := .text sender, text := .text text, location := .int location, timestamp := .ofTimestamp timestamp
      total := .int total, part := .int part, header, smsc, parts := .messages (uncheckedAll parts) }

def uncheckedAll : List Message → List Unchecked
  | [] => []
  | m :: ms => m.unchecked :: uncheckedAll ms

end

theorem uncheckedAll_eq_map (ms : List Message) : uncheckedAll ms = ms.map unchecked := by
  induction ms with
  | nil => rfl
  | cons m ms ih => simp [uncheckedAll, ih]

namespace Unchecked

mutual

/-- The message, if its fields are of the kinds that a message has. -/
def check? (m : Unchecked) : Option Message :=
  match m with
  | ⟨.text sender, .text text, .int location, timestamp, .int total, .int part, header, smsc, .messages parts⟩ => do
    let timestamp ← timestamp.check?
    let parts ← checkAll? parts
    return { sender, text, location, timestamp, total, part, header, smsc, parts }
  | _ => none

def checkAll? : List Unchecked → Option (List Message)
  | [] => some []
  | m :: ms => do
    let m ← m.check?
    let ms ← checkAll? ms
    return m :: ms

end

/-- The key of the group that the message belongs to. (Integers are taken to have a text. Those of more than 4300
digits, which JSON does not spell, have none.) -/
def key (m : Unchecked) : String :=
  m.sender.plain ++ "-" ++ headerText m.header ++ "-" ++ m.total.plain

/-- Whether the message is one part of several. -/
def isPart (m : Unchecked) : Except Fault Bool := m.total.exceedsOne

/-- Every place on the device that the message occupies. -/
def locations (m : Unchecked) : Except Fault (List Value) :=
  match m.parts with
  | .messages [] => .ok [m.location]
  | .messages ms => .ok (ms.map location)
  | .value v => if v.isGiven then .error (Parts.fault v) else .ok [m.location]

end Unchecked

@[simp] theorem key_unchecked (m : Message) : m.unchecked.key = m.key := by
  obtain ⟨⟩ := m
  simp [unchecked, Unchecked.key, key, groupKey]

@[simp] theorem isPart_unchecked (m : Message) : m.unchecked.isPart = .ok m.isPart := by
  obtain ⟨⟩ := m
  rfl

@[simp] theorem iso?_unchecked (m : Message) : m.unchecked.timestamp.iso? = .ok (m.timestamp.map Timestamp.iso) := by
  obtain ⟨⟩ := m
  exact Stamp.iso?_ofTimestamp _

@[simp] theorem locations_unchecked (m : Message) :
    m.unchecked.locations = .ok (m.locations.map Value.int) := by
  obtain ⟨sender, text, location, timestamp, total, part, header, smsc, parts⟩ := m
  have hlocation : ∀ m : Message, m.unchecked.location = .int m.location := fun m => by cases m; rfl
  cases parts with
  | nil => rfl
  | cons p ps =>
    simp [unchecked, Unchecked.locations, locations, uncheckedAll_eq_map, hlocation, Function.comp_def]

end Message

end SmsRelay
