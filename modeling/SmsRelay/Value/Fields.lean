-- SUMMARY: Fields of a section that may be left out.
import SmsRelay.Fault
import SmsRelay.Value

/-!
# Fields of values

Reading the sections of a configuration: objects whose fields may be left out.
-/

namespace SmsRelay.Value

/-- The value of a field, or its default. -/
def fieldOr (fields : List (String × Value)) (name : String) (d : Value) : Value :=
  (field? fields name).getD d

/-- The fields of a value; only objects have any. -/
def fields : Value → Except Fault (List (String × Value))
  | .object fs => .ok fs
  | v => .error (.noFields v.kind)

@[simp] theorem fieldOr_nil (name : String) (d : Value) : fieldOr [] name d = d := rfl

@[simp] theorem fields_object (fs : List (String × Value)) : (object fs).fields = .ok fs := rfl

end SmsRelay.Value
