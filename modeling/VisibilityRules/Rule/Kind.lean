import VisibilityRules.Text.Blank
import VisibilityRules.Text.EditDistance
import VisibilityRules.Text.LowerCase

set_option autoImplicit false

/-!
The kinds of rule an element can carry, their ids in attribute values, and the kind that a
misspelled id most likely means.
-/
namespace VisibilityRules

inductive Kind where
  | everyone
  | notLoggedIn
  | loggedIn
  | selectedUserRoles
  | selectedUsers
  | discardedUsers
  | selectedDevices
  | dateRange
  | timeRange
  | dayOfWeek
  | urlParameters
  | hostPredicate
  deriving DecidableEq, Repr

namespace Kind

def catalogue : List Kind :=
  [everyone, notLoggedIn, loggedIn, selectedUserRoles, selectedUsers, discardedUsers,
   selectedDevices, dateRange, timeRange, dayOfWeek, urlParameters, hostPredicate]

def id : Kind → String
  | everyone => "none"
  | notLoggedIn => "not_logged_in"
  | loggedIn => "logged_in"
  | selectedUserRoles => "selected_user_roles"
  | selectedUsers => "selected_users"
  | discardedUsers => "discarded_users"
  | selectedDevices => "selected_devices"
  | dateRange => "date_range"
  | timeRange => "time_range"
  | dayOfWeek => "day_of_week"
  | urlParameters => "url_parameters"
  | hostPredicate => "php_function"

def label : Kind → String
  | everyone => "Everyone"
  | notLoggedIn => "Not Logged In Users"
  | loggedIn => "All Members"
  | selectedUserRoles => "Members with Selected User Roles"
  | selectedUsers => "Selected Users"
  | discardedUsers => "Discarded Users"
  | selectedDevices => "Selected Devices"
  | dateRange => "Date Range"
  | timeRange => "Time Range"
  | dayOfWeek => "Day Of Week"
  | urlParameters => "URL Parameters"
  | hostPredicate => "PHP Function"

def ofId? (id : String) : Option Kind :=
  -- The kind with this id, letter for letter; no id at all stands for everyone.
  if id = "" then some everyone else catalogue.find? (·.id = id)

def nearer (best next : Kind × Nat) : Kind × Nat :=
  -- Keeps the earlier of two candidates unless the later one is strictly nearer.
  if next.2 < best.2 then next else best

/-- The kind whose id is nearest to the text, trimmed and in lower case, if three edits or fewer
lead from one to the other. The first in the catalogue wins a tie. -/
def suggest (text : String) : Option Kind :=
  let word := Text.lowerChars (Text.trimChars text.toList)
  let measured := (catalogue.filter (· ≠ everyone)).map fun kind =>
    (kind, Text.editDistance word kind.id.toList)
  match measured.filter (·.2 ≤ 3) with
  | [] => none
  | first :: others => some (others.foldl nearer first).1

end Kind

end VisibilityRules
