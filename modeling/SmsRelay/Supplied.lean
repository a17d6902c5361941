-- SUMMARY: What may be supplied in the place of a callable.
import SmsRelay.Value

/-!
# Supplied arguments

What a caller supplies where a callable may stand: a callable, or some value
that cannot be called.
-/

namespace SmsRelay

inductive Supplied (κ : Type) where
  | value (v : Value)
  | callable (k : κ)
  deriving Inhabited

namespace Supplied

/-- Nothing supplied. -/
def nothing : Supplied κ := .value .null

end Supplied

end SmsRelay
