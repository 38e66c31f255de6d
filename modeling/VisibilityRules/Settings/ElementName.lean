import VisibilityRules.Shortcode.Search

set_option autoImplicit false

/-!
Names of elements in settings: the names that tags can have.
-/
namespace VisibilityRules.ElementName

def problem? (name : String) : Option String :=
  if name = "" then some "element name is empty"
  else
    (name.toList.find? fun c => !Shortcode.isNameChar c).map fun c =>
      "invalid character '" ++ c.toString ++ "' in element name '" ++ name ++ "'"

end VisibilityRules.ElementName
