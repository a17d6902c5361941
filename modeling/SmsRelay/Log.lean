-- SUMMARY: Log entries and their levels.
/-!
# Log entries

What the parts of the relay write to the log: a level, the part that speaks,
and a line of text.
-/

namespace SmsRelay.Log

inductive Level where
  | debug
  | info
  | warning
  | error
  deriving DecidableEq, Repr

def Level.name : Level → String
  | .debug => "DEBUG"
  | .info => "INFO"
  | .warning => "WARNING"
  | .error => "ERROR"

/-- The rank of a level; higher ranks matter more. -/
def Level.rank : Level → Nat
  | .debug => 10
  | .info => 20
  | .warning => 30
  | .error => 40

structure Entry where
  level : Level
  source : String
  text : String
  deriving DecidableEq, Repr

end SmsRelay.Log
