-- SUMMARY: Messages to be sent, and the results that the modem tool reports for them.
import SmsRelay.Fault
import SmsRelay.Supplied
import SmsRelay.Value.Fields
import SmsRelay.Value.Number
import SmsRelay.Value.Text

/-!
# Outbound messages

Messages to be sent, with what the application attaches to them, and the
results that the modem tool reports for a batch of them.
-/

namespace SmsRelay

/-- A message waiting to be sent. `κ` is the type of callbacks. -/
structure Outbound (κ : Type) where
  destination : String
  text : String
  context : Supplied κ := .nothing
  /-- Called when the modem tool has taken the message. -/
  callback : Option κ := none

namespace Outbound

/-- A text that is not empty. -/
def requireText (f : Fault) : Value → Except Fault String
  | .text s => if s = "" then .error f else .ok s
  | _ => .error f

/-- The context and the callback among the last two arguments. The context may be left out, so
that the callback stands in its place. -/
def attachments (context callback : Supplied κ) : Except Fault (Supplied κ × Option κ) :=
  match context, callback with
  | .callable k, .value .null => .ok (.nothing, some k)
  | c, .value .null => .ok (c, none)
  | c, .callable k => .ok (c, some k)
  | _, .value _ => .error .badCallback

/-- The message that the arguments describe. -/
def ofArguments (destination text : Value) (context callback : Supplied κ) :
    Except Fault (Outbound κ) := do
  let (context, callback) ← attachments context callback
  let destination ← requireText .badDestination destination
  let text ← requireText .badText text
  return { destination, text, context, callback }

/-- The arguments with which the modem tool sends a batch: destinations and texts in turn. -/
def arguments (batch : List (Outbound κ)) : List String :=
  batch.flatMap fun m => [m.destination, m.text]

@[simp] theorem arguments_nil : arguments ([] : List (Outbound κ)) = [] := rfl

@[simp] theorem arguments_cons (m : Outbound κ) (ms : List (Outbound κ)) :
    arguments (m :: ms) = m.destination :: m.text :: arguments ms := rfl

end Outbound

-- ---------------------------------------------------------------------------
-- Results
-- ---------------------------------------------------------------------------

/-- What the modem tool reports for one message of a batch. -/
structure TransmitResult where
  /-- The place of the message in the batch, from one. -/
  index : Int
  status : String
  detail : List (String × Value) := []

namespace TransmitResult

def succeeded (r : TransmitResult) : Bool := r.status = "success"

/-- An index, from the value that the tool gives for it. -/
def readIndex (v : Value) : Except Fault Int :=
  match v.toInteger with
  | .ok n => .ok n
  | .error .integerOfInfinity => .error .integerOfInfinity
  | .error _ => .error (.tool { command := "send", problem := "non-numeric result index: " ++ v.shown })

/-- The result that one entry of the tool's output describes. -/
def ofEntry (entry : Value) : Except Fault TransmitResult :=
  let malformed : Fault :=
    .tool { command := "send", problem := "malformed result entry: " ++ entry.shown }
  match entry with
  | .object fields =>
    match Value.field? fields "index" with
    | none => .error malformed
    | some v => do
      let index ← readIndex v
      return { index
               status := (Value.fieldOr fields "result" (.text "")).plain
               detail := fields.filter fun f => f.1 ≠ "index" ∧ f.1 ≠ "result" }
  | _ => .error malformed

/-- The results that the output of the tool holds. -/
def ofOutput : Value → Except Fault (List TransmitResult)
  | .list entries => entries.mapM ofEntry
  | _ => .error (.tool { command := "send", problem := "expected a JSON array of results" })

end TransmitResult

end SmsRelay
