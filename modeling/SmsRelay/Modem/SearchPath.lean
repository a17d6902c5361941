-- SUMMARY: Where the modem tool is looked for.
import SmsRelay.Fault
import SmsRelay.Path
import SmsRelay.Value.Fields
import SmsRelay.Value.Text

/-!
# Search path of the modem tool

Where the modem tool is looked for: in the `bin` directory of its home, if one
is set, and then wherever the surroundings say.
-/

namespace SmsRelay.Modem

/-- The search path with the `bin` directory of `home` put first. `directory` is the current one. -/
def searchPath (directory : String) (home base : Value) : Except Fault Value :=
  let base := base.orElse (.text "")
  if home.isGiven then
    match home with
    | .text home =>
      let bin := Path.join (Path.absolute directory home) "bin"
      .ok (.text (if base.isGiven then bin ++ ":" ++ base.plain else bin))
    | v => .error (.notPath v.kind)
  else .ok base

/-- The environment of the modem tool: the given one, with the search path set. -/
def environment (directory : String) (home : Value) (bindings : List (String × Value)) :
    Except Fault (List (String × Value)) := do
  let path ← searchPath directory home (Value.fieldOr bindings "PATH" .null)
  return Value.setField bindings "PATH" path

end SmsRelay.Modem
