-- SUMMARY: Values shown as text, quoted or plain.
import SmsRelay.Number.Layout
import SmsRelay.Text.Quoted
import SmsRelay.Value

/-!
# Values as text

Two texts of a value: the shown one, in which texts are quoted, and the plain
one, in which a text on its own stands for itself.
-/

namespace SmsRelay.Value

/-- The pieces with a comma and a blank between them. -/
def joinItems (pieces : List String) : String := ", ".intercalate pieces

mutual

/-- The shown text of a value. -/
def shown : Value → String
  | .null => "None"
  | .bool b => if b then "True" else "False"
  | .int n => toString n
  | .float x => Number.Layout.report.text x
  | .text s => Text.quote s
  | .list items => "[" ++ joinItems (shownItems items) ++ "]"
  | .object fields => "\x7b" ++ joinItems (shownFields fields) ++ "\x7d"

def shownItems : List Value → List String
  | [] => []
  | v :: vs => v.shown :: shownItems vs

def shownFields : List (String × Value) → List String
  | [] => []
  | (name, v) :: fs => (Text.quote name ++ ": " ++ v.shown) :: shownFields fs

end

/-- The plain text of a value: a text is itself, all else is as shown. -/
def plain : Value → String
  | .text s => s
  | v => v.shown

@[simp] theorem plain_text (s : String) : plain (.text s) = s := rfl

@[simp] theorem plain_int (n : Int) : plain (.int n) = toString n := by
  simp [plain, shown]

end SmsRelay.Value
