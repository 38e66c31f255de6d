import VisibilityRules.Rule.Policy
import VisibilityRules.Settings.Switches
import VisibilityRules.Shortcode.Search

set_option autoImplicit false

/-!
Rules applied to content: hidden occurrences are cut out of stored text, and the output of a hidden
element is replaced by nothing.
-/
namespace VisibilityRules.Content

open Shortcode (Occurrence)

def isHidden (policy : Policy) (visitor : Visitor) (o : Occurrence) : Bool :=
  !o.isEscaped && policy.hides o.attributes visitor

def strip (policy : Policy) (visitor : Visitor) (element text : String) : String :=
  Shortcode.removeAll text ((Shortcode.findAll element text).filter (isHidden policy visitor))

def stripAdvanced (policy : Policy) (visitor : Visitor) (switches : Switches) (text : String) :
    String :=
  switches.advancedElements.foldl (fun text element => strip policy visitor element text) text

def hidesOutput (policy : Policy) (visitor : Visitor) (switches : Switches) (element : String)
    (attributes : Attributes) : Bool :=
  switches.enabledState element == .enabled && policy.hides attributes visitor

def filterOutput (policy : Policy) (visitor : Visitor) (switches : Switches) (element : String)
    (attributes : Attributes) (output : String) : String :=
  if hidesOutput policy visitor switches element attributes then "" else output

end VisibilityRules.Content
