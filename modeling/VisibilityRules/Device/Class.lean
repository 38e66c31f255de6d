set_option autoImplicit false

/-!
What is known of a requesting device. A tablet usually counts as mobile too; phones and desktops
are what is left.
-/
namespace VisibilityRules

structure Device where
  isMobile : Bool
  isTablet : Bool
  deriving DecidableEq, Repr

namespace Device

def desktop : Device := ⟨false, false⟩

def phone : Device := ⟨true, false⟩

def tablet : Device := ⟨true, true⟩

def isPhone (d : Device) : Bool := d.isMobile && !d.isTablet

def isDesktop (d : Device) : Bool := !d.isMobile && !d.isTablet

end Device

end VisibilityRules
