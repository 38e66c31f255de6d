import VisibilityRules.Proofs.LetterCase
import VisibilityRules.Proofs.Payload
import VisibilityRules.Proofs.WrittenDates
import VisibilityRules.Rule.Policy

set_option autoImplicit false

/-!
Rules about query parameters. An element waits for all the parameters it names, or for any of them;
parameters without a name have no say.
-/
namespace VisibilityRules

/-! ### The rule -/

namespace Parameter

/-- The request has a parameter of this name, and its value is the expected one, blanks around it
and the case of ASCII letters aside. A value that is missing is empty. -/
def IsMet (p : Parameter) (query : Query) : Prop :=
  ∃ name actual, p.name = some name ∧ query[name]? = some actual ∧
    List.Forall₂ Text.SameLetter (Text.trimChars actual.toList) (p.value.getD "").toList

theorem holds_iff {p : Parameter} {query : Query} : p.holds query = true ↔ p.IsMet query := by
  rw [holds]
  split
  next missing =>
    refine iff_of_false Bool.false_ne_true ?_
    rintro ⟨name, actual, named, held, _⟩
    rw [named, Option.bind_some, held] at missing
    exact nomatch missing
  next actual found =>
    obtain ⟨name, named, held⟩ := Option.bind_eq_some_iff.mp found
    rw [Text.eqIgnoringAsciiCase_iff]
    constructor
    · exact fun same => ⟨name, actual, named, held, same⟩
    · rintro ⟨name', actual', named', held', same⟩
      obtain rfl := Option.some.inj (named.symm.trans named')
      obtain rfl := Option.some.inj (held.symm.trans held')
      exact same

instance (p : Parameter) (query : Query) : Decidable (p.IsMet query) :=
  decidable_of_iff _ holds_iff

end Parameter

/-- The word `or`, in any case and with blanks around it. -/
def AsksForAny (condition : Option String) : Prop :=
  ∃ word ∈ condition, List.Forall₂ Text.SameLetter (Text.trimChars word.toList) "or".toList

theorem matching_eq_any_iff {condition : Option String} :
    condition.map Matching.ofText = some .any ↔ AsksForAny condition := by
  cases condition with
  | none => simp [AsksForAny]
  | some word =>
    rw [Option.map_some, Option.some.injEq, Matching.ofText, AsksForAny]
    simp only [Option.mem_some_iff, exists_eq_left', ← Text.eqIgnoringAsciiCase_iff]
    split <;> simp_all

instance (condition : Option String) : Decidable (AsksForAny condition) :=
  decidable_of_iff _ matching_eq_any_iff

/-- An element that waits for these parameters. Blanks may stand around their payload. -/
structure Expects (attributes : Attributes) (parameters : List Parameter)
    (condition : Option String) : Prop where
  kind : attributes.kind = some .urlParameters
  condition : attributes.get "url_params_condition" = condition
  payload : ∃ front back, (∀ c ∈ front ++ back, Text.isBlank c = true) ∧
    attributes.get "url_params" =
      some (String.ofList (front ++ (Payload.encode parameters).toList ++ back))

namespace Policy

def named (parameters : List Parameter) : List Parameter := parameters.filter (·.name.isSome)

theorem mem_named {p : Parameter} {parameters : List Parameter} :
    p ∈ named parameters ↔ p ∈ parameters ∧ p.name ≠ none := by
  rw [named, List.mem_filter, Option.isSome_iff_ne_none]

section

variable {policy : Policy} {attributes : Attributes} {visitor : Visitor}
  {parameters : List Parameter} {condition : Option String}
  (nonempty : parameters ≠ []) (expects : Expects attributes parameters condition)

include nonempty expects

theorem hides_of_expects : policy.hides attributes visitor =
    if AsksForAny condition then
      !(named parameters).any fun p =>
        (p.name = some "" && visitor.query.isEmpty) || p.holds visitor.query
    else !(named parameters).all fun p => p.holds visitor.query := by
  obtain ⟨front, back, blank, payload⟩ := expects.payload
  have visible : ∀ c ∈ (Payload.encode parameters).toList, Text.isBlank c = false := by
    intro c mem
    simpa [Payload.isVisible] using Payload.isVisible_of_mem_encode mem
  have trimmed : Text.trim (String.ofList (front ++ (Payload.encode parameters).toList ++ back)) =
      Payload.encode parameters := by
    rw [Text.trim, String.toList_ofList, Text.trimChars_append _ blank,
      Text.trimChars_of_visible visible, String.ofList_toList]
  rw [hides, expects.kind]
  show hiddenByQuery attributes visitor = _
  rw [hiddenByQuery, payload, Option.map_some, trimmed, expects.condition]
  split
  next absent => exact absurd absent (Option.some_ne_none _)
  next empty => exact absurd (Option.some.inj empty) (Payload.encode_ne_empty nonempty)
  next found =>
    obtain rfl := Option.some.inj found
    rw [Payload.decode_encode]
    split
    next any => rw [if_pos (matching_eq_any_iff.mp any)]; rfl
    next all => rw [if_neg (mt matching_eq_any_iff.mpr all)]; rfl

theorem hides_any_iff (any : AsksForAny condition) : policy.hides attributes visitor = true ↔
    (∀ p ∈ parameters, p.name ≠ none → ¬ p.IsMet visitor.query) ∧
      ¬ ((∃ p ∈ parameters, p.name = some "") ∧ visitor.query = ∅) := by
  rw [hides_of_expects nonempty expects, if_pos any]
  simp only [Bool.not_eq_true', List.any_eq_false, Bool.or_eq_true, Bool.and_eq_true,
    decide_eq_true_eq, Std.ExtTreeMap.isEmpty_iff, Parameter.holds_iff, mem_named, not_or]
  constructor
  · intro missing
    refine ⟨fun p mem name => (missing p ⟨mem, name⟩).2, ?_⟩
    rintro ⟨⟨p, mem, blank⟩, bare⟩
    exact (missing p ⟨mem, by simp [blank]⟩).1 ⟨blank, bare⟩
  · rintro ⟨missing, asked⟩ p ⟨mem, name⟩
    exact ⟨fun ⟨blank, bare⟩ => asked ⟨⟨p, mem, blank⟩, bare⟩, missing p mem name⟩

theorem hides_all_iff (all : ¬ AsksForAny condition) : policy.hides attributes visitor = true ↔
    ∃ p ∈ parameters, p.name ≠ none ∧ ¬ p.IsMet visitor.query := by
  rw [hides_of_expects nonempty expects, if_neg all]
  simp only [Bool.not_eq_true', List.all_eq_false, Parameter.holds_iff, mem_named, and_assoc]

end

/-- Asked for any parameter, an element is hidden if no named one is met, unless the empty name is
among them and the request has no parameters. Asked for all, it is hidden if some named one is not
met. Parameters without a name may be put in or left out. -/
theorem hides_iff_parameters (policy : Policy) (attributes : Attributes) (visitor : Visitor)
    (parameters : List Parameter) (condition : Option String) (nonempty : parameters ≠ [])
    (expects : Expects attributes parameters condition) :
    (AsksForAny condition → (policy.hides attributes visitor = true ↔
      (∀ p ∈ parameters, p.name ≠ none → ¬ p.IsMet visitor.query) ∧
        ¬ ((∃ p ∈ parameters, p.name = some "") ∧ visitor.query = ∅))) ∧
    (¬ AsksForAny condition → (policy.hides attributes visitor = true ↔
      ∃ p ∈ parameters, p.name ≠ none ∧ ¬ p.IsMet visitor.query)) ∧
    ∀ (attributes' : Attributes) (parameters' : List Parameter), parameters' ≠ [] →
      Expects attributes' parameters' condition → named parameters' = named parameters →
      policy.hides attributes' visitor = policy.hides attributes visitor := by
  refine ⟨hides_any_iff nonempty expects, hides_all_iff nonempty expects, ?_⟩
  intro attributes' parameters' nonempty' expects' same
  rw [hides_of_expects nonempty expects, hides_of_expects nonempty' expects', same]

def waiting (parameters : List Parameter) (condition : String) : Attributes :=
  .ofEntries [("showfor", "url_parameters"), ("url_params_condition", condition),
    ("url_params", "\n" ++ Payload.encode parameters ++ "\u2003")]

theorem expects_waiting (parameters : List Parameter) (condition : String) :
    Expects (waiting parameters condition) parameters (some condition) := by
  have get (key : String) : (waiting parameters condition).get key =
      [("url_params", "\n" ++ Payload.encode parameters ++ "\u2003"),
        ("url_params_condition", condition), ("showfor", "url_parameters")].lookup key :=
    Dictionary.getElem?_ofEntries _ key
  constructor
  case kind =>
    have id : (waiting parameters condition).kindId = "url_parameters" := by
      rw [Attributes.kindId, get]
      rfl
    rw [Attributes.kind, id]
    decide
  case condition => exact get _
  case payload =>
    refine ⟨['\n'], ['\u2003'], by decide, (get _).trans ?_⟩
    simp [List.lookup, ← String.toList_inj]

/-- A parameter without a name, one with the empty name and one whose value comes in other letters.
The first of them alone hides the element just if any parameter is asked for. -/
theorem hides_iff_parameters_nameless :
    let unnamed : Parameter := ⟨none, some "v"⟩
    let parameters : List Parameter := [unnamed, ⟨some "", none⟩, ⟨some "ref", some "News"⟩]
    let hidden (parameters : List Parameter) (condition : String) (query : Query) : Bool :=
      (Policy.ofPredicates ∅).hides (waiting parameters condition)
        { Visitor.anonymous (.ofDate ⟨2024, 3, 6⟩ 12 30 0 0) with query }
    let met : Query := .ofEntries [("ref", " nEWS\n")]
    let other : Query := .ofEntries [("a", "v")]
    [met, ∅, other].map (hidden parameters " oR ") = [false, false, true] ∧
      [met, ∅, other].map (hidden parameters "and") = [true, true, true] ∧
      [hidden [unnamed] "or" met, hidden [unnamed] "" met] = [true, false] := by
  intro unnamed parameters hidden met other
  have any (query : Query) (parameters : List Parameter) (condition : String)
      (nonempty : parameters ≠ []) (asks : AsksForAny (some condition)) :
      hidden parameters condition query = decide
        ((∀ p ∈ parameters, p.name ≠ none → ¬ p.IsMet query) ∧
          ¬ ((∃ p ∈ parameters, p.name = some "") ∧ query = ∅)) := by
    rw [Bool.eq_iff_iff, decide_eq_true_iff]
    exact (hides_iff_parameters _ _ _ parameters (some condition) nonempty
      (expects_waiting parameters condition)).1 asks
  have all (query : Query) (parameters : List Parameter) (condition : String)
      (nonempty : parameters ≠ []) (asks : ¬ AsksForAny (some condition)) :
      hidden parameters condition query = decide
        (∃ p ∈ parameters, p.name ≠ none ∧ ¬ p.IsMet query) := by
    rw [Bool.eq_iff_iff, decide_eq_true_iff]
    exact (hides_iff_parameters _ _ _ parameters (some condition) nonempty
      (expects_waiting parameters condition)).2.1 asks
  refine ⟨?_, ?_, ?_⟩
  · simp only [List.map_cons, List.map_nil, any _ parameters " oR " (by decide) (by decide)]
    decide
  · simp only [List.map_cons, List.map_nil, all _ parameters "and" (by decide) (by decide)]
    decide
  · rw [any met [unnamed] "or" (by decide) (by decide),
      all met [unnamed] "" (by decide) (by decide)]
    decide

end Policy

end VisibilityRules
