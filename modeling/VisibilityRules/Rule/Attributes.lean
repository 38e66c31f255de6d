import VisibilityRules.Dictionary
import VisibilityRules.Rule.Kind
import VisibilityRules.Text.Blank
import VisibilityRules.Text.Split

set_option autoImplicit false

/-!
The attributes of one element: a kind of rule under `showfor` and the parameters of that rule.
-/
namespace VisibilityRules

abbrev Attributes := Dictionary String

namespace Attributes

def kindKey : String := "showfor"

def get (attributes : Attributes) (key : String) : Option String := attributes[key]?

def nonEmpty (attributes : Attributes) (key : String) : Option String :=
  (attributes.get key).filter (· ≠ "")

def list (attributes : Attributes) (key : String) : Option (List String) :=
  (attributes.get key).map fun value =>
    (Text.split ',' value.toList).map fun item => String.ofList (Text.trimChars item)

def kindId (attributes : Attributes) : String := (attributes.get kindKey).getD ""

def kind (attributes : Attributes) : Option Kind := Kind.ofId? attributes.kindId

def renderEntry : String × String → String
  | (key, value) => key ++ "=\"" ++ value ++ "\""

def render (attributes : Attributes) : String :=
  " ".intercalate (attributes.toList.map renderEntry)

end Attributes

end VisibilityRules
