import VisibilityRules.Calendar.Instant
import VisibilityRules.Device.Class
import VisibilityRules.Rule.Parameter

set_option autoImplicit false

/-!
What a rule may know of the visitor who asks for a page.
-/
namespace VisibilityRules

structure User where
  id : Nat
  roles : List String
  deriving DecidableEq, Repr

structure Visitor where
  -- The user, if one is logged in.
  user : Option User
  query : Query
  now : Calendar.Instant
  device : Device

namespace Visitor

def anonymous (now : Calendar.Instant) : Visitor := ⟨none, ∅, now, .desktop⟩

def isLoggedIn (v : Visitor) : Bool := v.user.isSome

def userId (v : Visitor) : String :=
  -- The id of the user in decimal; visitors who are not logged in have id 0.
  toString ((v.user.map (·.id)).getD 0)

end Visitor

end VisibilityRules
