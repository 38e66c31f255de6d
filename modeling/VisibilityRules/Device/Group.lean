import VisibilityRules.Device.Class
import VisibilityRules.Text.Blank
import VisibilityRules.Text.LowerCase
import VisibilityRules.Text.Split

set_option autoImplicit false

/-!
The groups of devices a rule can select.
-/
namespace VisibilityRules

inductive DeviceGroup where
  | desktops
  | mobiles
  | phones
  | tablets
  deriving DecidableEq, Repr

namespace DeviceGroup

def catalogue : List DeviceGroup := [desktops, mobiles, phones, tablets]

/-- The order in which selected groups are tried. -/
def precedence : List DeviceGroup := [mobiles, tablets, phones, desktops]

def id : DeviceGroup → String
  | desktops => "desktops"
  | mobiles => "mobiles"
  | phones => "phones"
  | tablets => "tablets"

def title : DeviceGroup → String
  | desktops => "Desktops"
  | mobiles => "Mobiles"
  | phones => "Phones"
  | tablets => "Tablets"

def ofId? (id : String) : Option DeviceGroup := catalogue.find? (·.id = id)

def includes (group : DeviceGroup) (d : Device) : Bool :=
  match group with
  | desktops => d.isDesktop
  | mobiles => d.isMobile
  | phones => d.isPhone
  | tablets => d.isTablet

def search (term : String) : List DeviceGroup :=
  let wanted := Text.lowerChars (Text.trimChars term.toList)
  catalogue.filter fun group => Text.contains (Text.lowerChars group.title.toList) wanted

end DeviceGroup

end VisibilityRules
