import VisibilityRules.Proofs.WrittenDates
import VisibilityRules.Rule.Policy

set_option autoImplicit false

/-!
Ranges of dates. An element is shown from the one date to the other, both included; a date that is
not given bounds nothing.
-/
namespace VisibilityRules.Period

open Calendar

variable {attributes : Attributes} {visitor : Visitor}

/-- A written date stands under a key, or none does: the key is missing or its text is empty. -/
def Gives (attributes : Attributes) (key : String) : Option WrittenDate → Prop
  | some w => attributes.get key = some w.text
  | none => attributes.get key = none ∨ attributes.get key = some ""

end VisibilityRules.Period
