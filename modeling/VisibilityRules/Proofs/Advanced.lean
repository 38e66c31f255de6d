import VisibilityRules.Proofs.Authored
import VisibilityRules.Proofs.Verification

set_option autoImplicit false

/-!
Stripping all advanced elements, one after the other. The pass asks for the advanced switches only:
an element that is also disabled is cut out too, though the check of the settings denies it.
-/
namespace VisibilityRules

namespace Switches

def withoutDisabled (s : Switches) : Switches :=
  { s with advanced := s.advanced.filter fun element _ => s.enabledState element != .disabled }

theorem advancedElements_withoutDisabled (s : Switches) :
    s.withoutDisabled.advancedElements =
      s.advancedElements.filter fun element => s.enabledState element != .disabled := by
  rw [advancedElements, withoutDisabled, Std.ExtTreeMap.toList_filter, advancedElements,
    List.filter_map, List.filter_filter, List.filter_filter]
  congr 2
  funext entry
  exact Bool.and_comm ..

end Switches

namespace Content

open Shortcode

section

variable (policy : Policy) (visitor : Visitor)

def stripEach (elements : List String) (text : String) : String :=
  elements.foldl (fun text element => strip policy visitor element text) text

theorem stripAdvanced_eq (switches : Switches) (text : String) :
    stripAdvanced policy visitor switches text =
      stripEach policy visitor switches.advancedElements text := rfl

variable {policy visitor}

/-- Elements can be left out if none of their occurrences is hidden when their turn comes. -/
theorem stripEach_filter {keep : String → Bool} {elements : List String} {text : String}
    (idle : ∀ before element after, elements = before ++ element :: after → keep element = false →
      ∀ o ∈ findAll element (stripEach policy visitor before text),
        isHidden policy visitor o = false) :
    stripEach policy visitor (elements.filter keep) text =
      stripEach policy visitor elements text := by
  -- Each element works on what the earlier ones have left, so the text is not fixed.
  induction elements generalizing text with
  | nil => rfl
  | cons element elements ih =>
    have later : stripEach policy visitor (elements.filter keep)
          (strip policy visitor element text) =
        stripEach policy visitor elements (strip policy visitor element text) := by
      apply ih
      intro before next after split
      exact idle (element :: before) next after (by rw [split, List.cons_append])
    cases kept : keep element with
    | true =>
      rw [List.filter_cons_of_pos kept]
      exact later
    | false =>
      have same : strip policy visitor element text = text :=
        strip_eq_self_iff.mpr (idle [] element elements rfl kept)
      rw [same] at later
      rw [List.filter_cons_of_neg (by simp [kept]), later, stripEach, stripEach, List.foldl_cons,
        same]

end

/-! ### A text that shows the effect -/

def membersRule : Attributes := .ofEntries [("showfor", "logged_in")]

theorem membersRule_facts :
    membersRule.ArePlain ∧ membersRule.kind = some .loggedIn ∧
      '[' ∉ (" " ++ membersRule.render).toList := by
  decide

theorem hides_membersRule (policy : Policy) (now : Calendar.Instant) :
    policy.hides membersRule (.anonymous now) = true := by
  rw [Policy.hides, membersRule_facts.2.1]
  rfl

def membersTail : Tail := ruleTail membersRule .selfClosing

theorem wellFormed_membersTail (tag : List Char) : membersTail.WellFormed tag :=
  wellFormed_ruleTail membersRule_facts.1 nofun

/-- A tag that only visitors who are logged in get to see. -/
def forMembers (element : String) : String := "[" ++ element ++ " " ++ membersRule.render ++ "/]"

theorem text_made_membersTail (element : String) :
    (membersTail.made element.toList 0 false).text = forMembers element := by
  apply String.toList_inj.mp
  simp [forMembers, membersTail, ruleTail, extra, Tail.text, Form.text]

section

variable (policy : Policy) (now : Calendar.Instant) {element : String}

theorem strip_empty : strip policy (.anonymous now) element "" = "" := by
  refine strip_eq_self_iff.mpr fun o mem => ?_
  have listed := mem_findAll mem
  simp at listed

theorem strip_forMembers (name : IsName element.toList) :
    strip policy (.anonymous now) element (forMembers element) = "" := by
  have stripped := @strip_tag policy (.anonymous now) element "" "" false membersTail name
    (by simp) (wellFormed_membersTail element.toList) (Tail.StopsAt.nil element.toList membersTail)
  have hidden : isHidden policy (.anonymous now) (membersTail.made element.toList 0 false) = true :=
    (isHidden_ruleTail membersRule_facts.1 ..).trans (hides_membersRule policy now)
  rw [text_made_membersTail, hidden, if_pos rfl, strip_empty] at stripped
  simpa using stripped

theorem strip_forMembers_other {other : String} (name : IsName element.toList)
    (name' : IsName other.toList) (differs : other ≠ element) :
    strip policy (.anonymous now) other (forMembers element) = forMembers element := by
  have whole : (forMembers element).toList =
      '[' :: (element.toList ++ membersTail.text element.toList) := by
    rw [← text_made_membersTail, Tail.toList_text_made]
    rfl
  have skipped : Skipped other.toList '[' (element.toList ++ membersTail.text element.toList) := by
    intro _
    rw [← Option.not_isSome_iff_eq_none, readOccurrence_isSome_iff]
    refine not_opens_other name name' (fun c head => ?_) (mt String.toList_inj.mp differs)
    exact (wellFormed_membersTail element.toList).head_text (by rwa [List.append_nil])
  have no_bracket : '[' ∉ element.toList ++ membersTail.text element.toList := by
    have own : '[' ∉ element.toList := name.free (by decide)
    simp only [Tail.text, membersTail, ruleTail, Form.text, extra, List.mem_append, not_or]
    exact ⟨own, membersRule_facts.2.2, by decide, by decide⟩
  refine strip_eq_self_iff.mpr fun o mem => ?_
  have listed := mem_findAll mem
  rw [whole, occurrences_skipped skipped, ← List.append_nil (_ ++ _), occurrences_append no_bracket,
    occurrences_nil] at listed
  exact absurd listed List.not_mem_nil

theorem stripEach_empty (elements : List String) :
    stripEach policy (.anonymous now) elements "" = "" := by
  induction elements with
  | nil => rfl
  | cons element elements ih =>
    rw [stripEach, List.foldl_cons, strip_empty]
    exact ih

theorem stripEach_forMembers_of_not_mem {elements : List String} (name : IsName element.toList)
    (names : ∀ other ∈ elements, IsName other.toList) (absent : element ∉ elements) :
    stripEach policy (.anonymous now) elements (forMembers element) = forMembers element := by
  induction elements with
  | nil => rfl
  | cons other elements ih =>
    rw [List.mem_cons, not_or] at absent
    obtain ⟨name', names⟩ := List.forall_mem_cons.mp names
    rw [stripEach, List.foldl_cons,
      strip_forMembers_other policy now name name' (Ne.symm absent.1)]
    exact ih names absent.2

theorem stripEach_forMembers_of_mem {elements : List String}
    (names : ∀ other ∈ elements, IsName other.toList) (mem : element ∈ elements) :
    stripEach policy (.anonymous now) elements (forMembers element) = "" := by
  induction elements with
  | nil => simp at mem
  | cons other elements ih =>
    obtain ⟨name', names⟩ := List.forall_mem_cons.mp names
    rw [stripEach, List.foldl_cons]
    by_cases same : other = element
    next =>
      subst same
      rw [strip_forMembers policy now name']
      exact stripEach_empty policy now elements
    next =>
      have mem : element ∈ elements := List.mem_of_ne_of_mem (Ne.symm same) mem
      rw [strip_forMembers_other policy now (names element mem) name' same]
      exact ih names mem

end

/-- Leaving the disabled elements out changes nothing for a text in which none of them has a
hidden occurrence at its turn. It changes nothing for any text just if the check of the settings
has no advanced element to complain of as disabled. -/
theorem stripAdvanced_withoutDisabled (policy : Policy) (settings : Settings)
    (valid : ∀ element ∈ settings.switches.advancedElements, ElementName.problem? element = none) :
    let switches := settings.switches
    (∀ visitor text,
      (∀ before element after, switches.advancedElements = before ++ element :: after →
        switches.enabledState element = .disabled →
          ∀ o ∈ findAll element (stripEach policy visitor before text),
            isHidden policy visitor o = false) →
        stripAdvanced policy visitor switches text =
          stripAdvanced policy visitor switches.withoutDisabled text) ∧
    ((∀ visitor text, stripAdvanced policy visitor switches text =
        stripAdvanced policy visitor switches.withoutDisabled text) ↔
      ∀ element, Settings.noEffect element ∉ settings.problems) := by
  intro switches
  have reduced (visitor : Visitor) (text : String) :
      stripAdvanced policy visitor switches.withoutDisabled text =
        stripEach policy visitor (switches.advancedElements.filter fun element =>
          switches.enabledState element != .disabled) text := by
    rw [stripAdvanced_eq, Switches.advancedElements_withoutDisabled]
  have idle_suffices (visitor : Visitor) (text : String)
      (idle : ∀ before element after, switches.advancedElements = before ++ element :: after →
        switches.enabledState element = .disabled →
          ∀ o ∈ findAll element (stripEach policy visitor before text),
            isHidden policy visitor o = false) :
      stripAdvanced policy visitor switches text =
        stripAdvanced policy visitor switches.withoutDisabled text := by
    rw [reduced, stripAdvanced_eq, stripEach_filter]
    intro before element after split left_out
    exact idle before element after split (by simpa using left_out)
  refine ⟨idle_suffices, ?_, ?_⟩
  · intro same element reported
    obtain ⟨advanced, disabled⟩ : element ∈ switches.advancedElements ∧
      switches.enabledState element = .disabled := Settings.noEffect_mem_problems.mp reported
    have names : ∀ other ∈ switches.advancedElements, IsName other.toList :=
      fun other mem => isName_iff.mpr (valid other mem)
    -- One tag of the element alone is enough of a text to tell the two apart.
    have cut := stripEach_forMembers_of_mem policy ⟨0, 0⟩ names advanced
    have left := same (.anonymous ⟨0, 0⟩) (forMembers element)
    rw [reduced, stripAdvanced_eq, cut, stripEach_forMembers_of_not_mem policy ⟨0, 0⟩
      (names element advanced) (fun other mem => names other (List.mem_of_mem_filter mem))
      (by simp [disabled])] at left
    have size := congrArg String.toList left
    simp [forMembers] at size
  · intro unreported visitor text
    apply idle_suffices
    intro before element after split disabled
    have advanced : element ∈ switches.advancedElements := by simp [split]
    exact absurd (Settings.noEffect_mem_problems.mpr ⟨advanced, disabled⟩) (unreported element)

theorem stripAdvanced_withoutDisabled_two_elements :
    let switches : Switches :=
      ⟨.ofEntries [("a", "disabled")], .ofEntries [("a", "on"), ("b", "on")]⟩
    (∀ element ∈ switches.advancedElements, ElementName.problem? element = none) ∧
      ¬ ∀ visitor text, stripAdvanced (.ofPredicates ∅) visitor switches text =
        stripAdvanced (.ofPredicates ∅) visitor switches.withoutDisabled text := by
  intro switches
  have valid : ∀ element ∈ switches.advancedElements, ElementName.problem? element = none := by
    decide
  have reported : Settings.noEffect "a" ∈ Settings.problems ⟨switches, ∅⟩ := by decide
  have exact_when := stripAdvanced_withoutDisabled (.ofPredicates ∅) ⟨switches, ∅⟩ valid
  exact ⟨valid, fun same => exact_when.2.mp same "a" reported⟩

theorem stripAdvanced_disabled_ne :
    let switches : Switches := ⟨.ofEntries [("tag", "disabled")], .ofEntries [("tag", "on")]⟩
    let pass := stripAdvanced (.ofPredicates ∅) (.anonymous ⟨0, 0⟩)
    let text := "a[tag showfor=\"logged_in\"/]b"
    pass switches text = "ab" ∧ pass switches.withoutDisabled text = text ∧ text ≠ "ab" := by
  decide +kernel

end Content

end VisibilityRules
