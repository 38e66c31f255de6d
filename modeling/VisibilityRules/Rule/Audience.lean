import VisibilityRules.Device.Group
import VisibilityRules.Rule.Attributes
import VisibilityRules.Rule.Visitor

set_option autoImplicit false

/-!
Rules about who the visitor is and what device asks. Each tells whether the element is hidden.
-/
namespace VisibilityRules.Audience

def hiddenByRoles (attributes : Attributes) (visitor : Visitor) : Bool :=
  -- Shown to users with one of the listed roles; a role without a name counts for nothing.
  match visitor.user, attributes.list "selected_user_roles" with
  | some user, some selected =>
    !user.roles.any fun role => role ≠ "" && selected.contains role
  | _, _ => true

def hiddenBySelection (attributes : Attributes) (visitor : Visitor) : Bool :=
  match attributes.list "selected_users" with
  | some selected => !selected.contains visitor.userId
  | none => true

def hiddenByDiscard (attributes : Attributes) (visitor : Visitor) : Bool :=
  match attributes.list "discarded_users" with
  | some discarded => discarded.contains visitor.userId
  | none => false

def hiddenByDevice (attributes : Attributes) (visitor : Visitor) : Bool :=
  -- Shown on devices of one of the listed groups; ids of no group are ignored.
  match attributes.list "selected_devices" with
  | some ids =>
    let selected := ids.filterMap DeviceGroup.ofId?
    (DeviceGroup.precedence.find? fun group =>
      selected.contains group && group.includes visitor.device).isNone
  | none => true

end VisibilityRules.Audience
