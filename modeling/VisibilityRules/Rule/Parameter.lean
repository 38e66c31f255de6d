import VisibilityRules.Dictionary
import VisibilityRules.Text.Blank
import VisibilityRules.Text.LowerCase
import VisibilityRules.Text.Split

set_option autoImplicit false

/-!
Query parameters that a rule expects of a request.
-/
namespace VisibilityRules

abbrev Query := Dictionary String

structure Parameter where
  name : Option String
  value : Option String
  deriving DecidableEq, Repr

namespace Parameter

def ofPair (pair : String) : Parameter :=
  -- Reads `name=value`; without an equals sign the value is empty.
  match Text.splitOnce '=' pair.toList with
  | some (name, value) => ⟨some (String.ofList name), some (String.ofList value)⟩
  | none => ⟨some pair, some ""⟩

/-- The request has a parameter of this name with this value, blanks around it and the case of
ASCII letters aside. -/
def holds (p : Parameter) (query : Query) : Bool :=
  match p.name.bind (query[·]?) with
  | none => false
  | some actual =>
    Text.eqIgnoringAsciiCase (Text.trimChars actual.toList) (p.value.getD "").toList

end Parameter

inductive Matching where
  | all
  | any
  deriving DecidableEq, Repr

def Matching.ofText (text : String) : Matching :=
  -- The word `or`, in either case, asks for any of the parameters.
  if Text.eqIgnoringAsciiCase (Text.trimChars text.toList) "or".toList then .any else .all

end VisibilityRules
