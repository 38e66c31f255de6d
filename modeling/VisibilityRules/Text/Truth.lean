import VisibilityRules.Text.LowerCase

set_option autoImplicit false

/-!
Words for truth values.
-/
namespace VisibilityRules.Text

def truth? (word : String) : Option Bool :=
  match lower word with
  | "true" | "1" | "yes" | "on" => some true
  | "false" | "0" | "no" | "off" => some false
  | _ => none

end VisibilityRules.Text
