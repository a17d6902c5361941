-- SUMMARY: Reading the records of the modem tool as messages, and its answer to a deletion.
import SmsRelay.Fault
import SmsRelay.Message
import SmsRelay.Timestamp.Device
import SmsRelay.Value.Fields
import SmsRelay.Value.Number

/-!
# Message records

The records in which the modem tool prints the messages it finds on the device,
and its answer to a deletion. The tool has two spellings for some fields. A
timestamp that cannot be read is left out of the message, with a note.
-/

namespace SmsRelay

namespace Record

/-- The value of the first of two fields that is there. -/
def firstField? (fields : List (String × Value)) (name other : String) : Option Value :=
  (Value.field? fields name).or (Value.field? fields other)

/-- A number of parts, or of a part: one unless it is given. -/
def readCount (v : Option Value) : Except Fault Int := ((v.getD .null).orElse (.int 1)).toInteger

/-- A header. The tool prints false for a message without one. -/
def readHeader : Value → Except Fault Value
  | .null => .ok .null
  | .bool false => .ok .null
  | v => v.toInteger.map .int

/-- The sender: a text that is not empty. -/
def readSender (fields : List (String × Value)) : Except Fault String :=
  match Value.field? fields "from" with
  | none => .error (.missingField "from")
  | some (.text s) => if s = "" then .error .noSender else .ok s
  | some _ => .error .noSender

def readLocation (fields : List (String × Value)) : Except Fault Int :=
  match Value.field? fields "location" with
  | none => .error (.missingField "location")
  | some v => v.toInteger

def readText (fields : List (String × Value)) : String :=
  (((firstField? fields "content" "text").getD .null).orElse (.text "")).plain

/-- All of a message that comes before its timestamp. -/
def readHead (fields : List (String × Value)) : Except Fault Message := do
  let sender ← readSender fields
  let total ← readCount (firstField? fields "total-segments" "total_segments")
  let part ← readCount (Value.field? fields "segment")
  let location ← readLocation fields
  return { sender, text := readText fields, location, total := max total 1, part }

/-- What a record says: a message or a fault, and the text of a timestamp that was left out. -/
structure Reading where
  result : Except Fault Message
  ignored : Option String := none

/-- The reading of the fields of a record. -/
def readFields (fields : List (String × Value)) : Reading :=
  match readHead fields with
  | .error f => ⟨.error f, none⟩
  | .ok head =>
    let timestamp := Timestamp.reading (Value.fieldOr fields "timestamp" .null)
    let result := (readHeader (Value.fieldOr fields "udh" .null)).map fun header =>
      { head with
        timestamp := timestamp.toOption
        header
        smsc := (Value.fieldOr fields "smsc" .null).orElse .null }
    ⟨result, timestamp.ignored?⟩

/-- The reading of a record. -/
def read : Value → Reading
  | .object fields => readFields fields
  | v => ⟨.error (.recordKind v.kind), none⟩

/-- The message that a record describes. -/
def message (record : Value) : Except Fault Message := (read record).result

/-- Whether a record that leads to a fault is merely skipped. An infinite number stops the whole
retrieval. -/
def isSkipped : Fault → Bool
  | .integerOfInfinity => false
  | _ => true

/-- The records that the output of the tool holds. -/
def ofOutput : Value → Except Fault (List Value)
  | .list records => .ok records
  | _ => .error (.tool { command := "retrieve", problem := "expected a JSON array of messages" })

end Record

/-- The answer of the modem tool to a deletion: a status for each place. -/
structure DeletionReport where
  statuses : List (String × String)

namespace DeletionReport

/-- The report that the output of the tool holds. -/
def ofOutput (output : Value) : Except Fault DeletionReport :=
  let refused : Fault := .tool { command := "delete", problem := "expected an object with a `detail` map" }
  match output with
  | .object fields =>
    match Value.field? fields "detail" with
    | some (.object detail) => .ok ⟨detail.map fun f => (f.1, f.2.plain)⟩
    | _ => .error refused
  | _ => .error refused

/-- The status that the report gives for a place. -/
def status? (r : DeletionReport) (location : Int) : Option String :=
  (r.statuses.find? (·.1 == toString location)).map (·.2)

/-- Whether the report says that the message at a place has been erased. -/
def confirms (r : DeletionReport) (location : Int) : Bool := r.status? location = some "ok"

end DeletionReport

/-- The arguments with which the modem tool erases the places of some candidates. -/
def Candidate.arguments (batch : List Candidate) : List String :=
  batch.map fun c => toString c.location

@[simp] theorem Candidate.arguments_nil : Candidate.arguments [] = [] := rfl

@[simp] theorem Candidate.arguments_cons (c : Candidate) (cs : List Candidate) :
    Candidate.arguments (c :: cs) = toString c.location :: Candidate.arguments cs := rfl

end SmsRelay
