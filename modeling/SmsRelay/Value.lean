-- SUMMARY: Dynamic values, and their fields.
/-!
# Values

The dynamic values that the modem tool prints, the configuration file holds and
applications attach to messages. An object keeps its fields in the order in
which they were first written and names each of them once.
-/

namespace SmsRelay

/-- A value as the modem tool or the configuration file gives it. -/
inductive Value where
  | null
  | bool (b : Bool)
  | int (n : Int)
  | float (x : Float)
  | text (s : String)
  | list (items : List Value)
  | object (fields : List (String × Value))
  deriving BEq, Inhabited, Repr

namespace Value

/-- The name that reports give to a kind of value. -/
def kind : Value → String
  | .null => "NoneType"
  | .bool _ => "bool"
  | .int _ => "int"
  | .float _ => "float"
  | .text _ => "str"
  | .list _ => "list"
  | .object _ => "dict"

def isNull : Value → Bool
  | .null => true
  | _ => false

/-- Values that count as given: all but null, false, zeros, and empty text, lists and objects. -/
def isGiven : Value → Bool
  | .null => false
  | .bool b => b
  | .int n => n ≠ 0
  | .float x => !(x == 0.0)
  | .text s => s ≠ ""
  | .list items => !items.isEmpty
  | .object fields => !fields.isEmpty

/-- The value if it is given, and a default otherwise. -/
def orElse (v d : Value) : Value := if v.isGiven then v else d

/-- The value of a field. -/
def field? (fields : List (String × Value)) (name : String) : Option Value :=
  (fields.find? (·.1 == name)).map (·.2)

/-- Write a field: in its old place if it is there, at the end otherwise. -/
def setField (fields : List (String × Value)) (name : String) (v : Value) : List (String × Value) :=
  if fields.any (·.1 == name) then fields.map fun f => if f.1 == name then (name, v) else f
  else fields ++ [(name, v)]

@[simp] theorem field?_nil (name : String) : field? [] name = none := rfl

@[simp] theorem isGiven_null : isGiven .null = false := rfl

@[simp] theorem null_orElse (d : Value) : orElse .null d = d := rfl

end Value

end SmsRelay
