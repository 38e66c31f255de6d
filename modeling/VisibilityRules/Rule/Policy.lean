import VisibilityRules.Rule.Audience
import VisibilityRules.Rule.Payload
import VisibilityRules.Rule.Period

set_option autoImplicit false

/-!
The decision whether an element is hidden. It depends on the element's attributes, on the visitor
and on what the host brings in: named predicates and a say on elements without a rule.
-/
namespace VisibilityRules

/-- A question about the visitor; the answer yes hides the element. -/
abbrev Predicate := Visitor → Bool

structure Policy where
  predicates : Dictionary Predicate
  -- Decides on attributes that name no rule or none that is known.
  fallback : Attributes → Visitor → Bool

namespace Policy

def ofPredicates (predicates : Dictionary Predicate) : Policy := ⟨predicates, fun _ _ => false⟩

def hiddenByQuery (attributes : Attributes) (visitor : Visitor) : Bool :=
  match (attributes.get "url_params").map Text.trim with
  | none => false
  | some "" => false
  | some payload =>
    -- Parameters without a name count for nothing.
    let named := (Payload.decode payload).filter (·.name.isSome)
    match (attributes.get "url_params_condition").map Matching.ofText with
    | some .any =>
      !named.any fun p => (p.name = some "" && visitor.query.isEmpty) || p.holds visitor.query
    | _ => !named.all fun p => p.holds visitor.query

def hiddenByPredicate (policy : Policy) (attributes : Attributes) (visitor : Visitor) : Bool :=
  -- A name that no predicate has hides nothing.
  match (attributes.get "php_function_name").bind (policy.predicates[·]?) with
  | some predicate => predicate visitor
  | none => false

def hides (policy : Policy) (attributes : Attributes) (visitor : Visitor) : Bool :=
  match attributes.kind with
  | some .notLoggedIn => visitor.isLoggedIn
  | some .loggedIn => !visitor.isLoggedIn
  | some .selectedUserRoles => Audience.hiddenByRoles attributes visitor
  | some .selectedUsers => Audience.hiddenBySelection attributes visitor
  | some .discardedUsers => Audience.hiddenByDiscard attributes visitor
  | some .selectedDevices => Audience.hiddenByDevice attributes visitor
  | some .dateRange => Period.hiddenByDate attributes visitor
  | some .timeRange => Period.hiddenByClock attributes visitor
  | some .dayOfWeek => Period.hiddenByWeekday attributes visitor
  | some .urlParameters => hiddenByQuery attributes visitor
  | some .hostPredicate => policy.hiddenByPredicate attributes visitor
  | some .everyone | none => policy.fallback attributes visitor

end Policy

end VisibilityRules
