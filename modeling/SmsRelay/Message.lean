-- SUMMARY: Received messages and their parts: keys of groups, places on the device, and candidates for deletion.
import SmsRelay.Timestamp
import SmsRelay.Value.Text

/-!
# Messages

A message read from the device, or one part of a message that was sent in
several. A message put together from its parts carries them; one that comes
straight from the device has none.
-/

namespace SmsRelay

structure Message where
  sender : String
  text : String
  /-- The place on the device that holds the message. -/
  location : Int
  timestamp : Option Timestamp := none
  /-- How many parts make up the whole message. -/
  total : Int := 1
  /-- The number of this part, from one. -/
  part : Int := 1
  /-- The identifier that the parts of one message share; null if there is none. -/
  header : Value := .null
  /-- The service centre, as the tool names it. -/
  smsc : Value := .null
  parts : List Message := []
  deriving Inhabited

/-- The text of a header in a key; a missing header counts as zero. -/
def headerText (header : Value) : String := if header.isNull then "0" else header.plain

@[simp] theorem headerText_null : headerText .null = "0" := rfl

@[simp] theorem headerText_int (n : Int) : headerText (.int n) = toString n := by
  simp [headerText, Value.isNull]

/-- The key shared by all parts of one message: sender, header and number of parts. Two messages
from one sender with the same header and number of parts have the same key. -/
def groupKey (sender : String) (header : Value) (total : Int) : String :=
  sender ++ "-" ++ headerText header ++ "-" ++ toString total

namespace Message

def key (m : Message) : String := groupKey m.sender m.header m.total

/-- Whether the message is one part of several. -/
def isPart (m : Message) : Bool := 1 < m.total

/-- Every place on the device that the message occupies. -/
def locations (m : Message) : List Int :=
  if m.parts.isEmpty then [m.location] else m.parts.map location

theorem locations_of_parts_eq_nil {m : Message} (h : m.parts = []) : m.locations = [m.location] := by
  simp [locations, h]

theorem locations_of_parts_ne_nil {m : Message} (h : m.parts ≠ []) :
    m.locations = m.parts.map location := by
  simp [locations, h]

theorem isPart_iff {m : Message} : m.isPart = true ↔ 1 < m.total := by simp [isPart]

end Message

/-- A place on the device that may be erased, and the message that was there. -/
structure Candidate where
  location : Int
  message : Option Message := none
  deriving Inhabited

/-- The candidates for deletion that a delivered message gives rise to. -/
def Message.candidates (m : Message) : List Candidate :=
  m.locations.map fun l => ⟨l, some m⟩

@[simp] theorem Message.map_location_candidates (m : Message) :
    m.candidates.map Candidate.location = m.locations := by
  simp [candidates, Function.comp_def]

end SmsRelay
