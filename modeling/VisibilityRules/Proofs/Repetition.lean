import VisibilityRules.Proofs.Strip
import VisibilityRules.Proofs.Tagged

set_option autoImplicit false

/-!
A second strip pass. It can find hidden occurrences that the first one has made: the texts left and
right of a place where something was cut out can join to a tag. That takes an opening bracket that
belongs to no tag of the text.
-/
namespace VisibilityRules.Content

open Shortcode
open Text.Utf8 (size ofString)

variable {policy : Policy} {visitor : Visitor} {element text : String}

theorem reaching_of_hidden_in_strip {o : Occurrence} (name : IsName element.toList)
    (mem : o ∈ findAll element (strip policy visitor element text))
    (hides : isHidden policy visitor o = true) :
    ∃ reaching ∈ findAll element (strip policy visitor element text), reaching.start ≤ o.start ∧
      reaching.ReachesOver
        (seams 0 ((hiddenIn policy visitor element text).map Occurrence.span)) := by
  have cut : (hiddenIn policy visitor element text).map Occurrence.span =
      pickedSpans (isHidden policy visitor) element.toList (0 + 0) text.toList := by
    rw [hiddenIn, name.findAll_eq]
    rfl
  rw [name.findAll_eq, toList_strip name] at mem ⊢
  rw [cut]
  exact reaching_of_found_again (fun _ _ => rfl) name 0 0 mem hides

/-- Every opening bracket of the text lies in an occurrence that is found. -/
def IsTagged (element text : String) : Prop :=
  ∀ i, (ofString text)[i]? = some '['.toUInt8 →
    ∃ o ∈ findAll element text, o.start ≤ i ∧ i < o.stop

theorem IsTagged.tagged (name : IsName element.toList) (brackets : IsTagged element text) :
    Tagged element.toList text.toList := by
  have covered : ∀ before rest, text.toList = before ++ '[' :: rest →
      ∃ o ∈ occurrences element.toList 0 text.toList,
        o.start ≤ 0 + size before ∧ 0 + size before < o.stop := by
    intro before rest whole
    have here : (ofString text)[size before]? = some '['.toUInt8 := by
      rw [ofString, whole]
      exact (Text.Utf8.getElem?_encode_append before ('[' :: rest) 0).trans
        ((Text.Utf8.getElem?_encode_zero_iff (by decide)).mpr rfl)
    rw [Nat.zero_add, ← name.findAll_eq]
    exact brackets _ here
  exact tagged_of_covered covered

theorem visible_of_isTagged {o : Occurrence} (name : IsName element.toList)
    (brackets : IsTagged element text)
    (mem : o ∈ findAll element (strip policy visitor element text)) :
    isHidden policy visitor o = false := by
  rw [name.findAll_eq, toList_strip name] at mem
  have bracketed (o : Occurrence) (visible : isHidden policy visitor o = false) :
      isHidden policy visitor { o with trailing := true } = false := by
    change (!(o.leading && true) && policy.hides o.attributes visitor) = false
    cases leading : o.leading with
    | true => rfl
    | false => simpa [isHidden, Occurrence.isEscaped, leading] using visible
  exact not_picked_of_tagged name (brackets.tagged name) (fun _ _ => rfl) bracketed mem

/-- A second strip pass does nothing just if the first one leaves no hidden occurrence. In the text
left such an occurrence stands at or behind one that reaches over a place where a hidden occurrence
was cut out; if none does, the second pass does nothing. -/
theorem strip_strip_eq_iff (policy : Policy) (visitor : Visitor) (element text : String) :
    let hidden := (findAll element text).filter (isHidden policy visitor)
    let stripped := strip policy visitor element text
    (strip policy visitor element stripped = stripped ↔
      ∀ o ∈ findAll element stripped, isHidden policy visitor o = false) ∧
    (ElementName.problem? element = none →
      (strip policy visitor element stripped = stripped ↔
        ∀ reaching ∈ findAll element stripped,
          reaching.ReachesOver (seams 0 (hidden.map Occurrence.span)) →
            ∀ o ∈ findAll element stripped, reaching.start ≤ o.start →
              isHidden policy visitor o = false) ∧
      (IsTagged element text → strip policy visitor element stripped = stripped)) := by
  intro hidden stripped
  refine ⟨strip_eq_self_iff, fun valid => ⟨?_, fun brackets => ?_⟩⟩
  · rw [strip_eq_self_iff]
    constructor
    · intro visible _ _ _ o mem _
      exact visible o mem
    · intro visible o mem
      cases hides : isHidden policy visitor o with
      | false => rfl
      | true =>
        obtain ⟨reaching, found, earlier, reaches⟩ :=
          reaching_of_hidden_in_strip (isName_iff.mpr valid) mem hides
        exact hides ▸ visible reaching found reaches o mem earlier
  · exact strip_eq_self_iff.mpr fun o mem =>
      visible_of_isTagged (isName_iff.mpr valid) brackets mem

theorem strip_strip_eq_iff_joined :
    let pass := strip (.ofPredicates ∅) (.anonymous ⟨0, 0⟩) "ab"
    let text := "[a[ab showfor=logged_in/]b showfor=logged_in/]"
    let hidden := (findAll "ab" text).filter (isHidden (.ofPredicates ∅) (.anonymous ⟨0, 0⟩))
    ElementName.problem? "ab" = none ∧
      ∃ reaching ∈ findAll "ab" (pass text),
        reaching.ReachesOver (seams 0 (hidden.map Occurrence.span)) := by
  have valid : ElementName.problem? "ab" = none := by decide
  refine ⟨valid, ?_⟩
  by_contra unreached
  have same := (strip_strip_eq_iff (.ofPredicates ∅) (.anonymous ⟨0, 0⟩) "ab"
    "[a[ab showfor=logged_in/]b showfor=logged_in/]").2 valid
  refine absurd (same.1.mpr fun reaching found reaches => ?_) (by decide +kernel)
  exact absurd ⟨reaching, found, reaches⟩ unreached

theorem strip_strip_ne :
    let pass := strip (.ofPredicates ∅) (.anonymous ⟨0, 0⟩) "tag"
    let text := "[t[tag showfor=\"logged_in\"/]ag showfor=\"logged_in\"/]"
    pass (pass text) ≠ pass text := by
  decide +kernel

end VisibilityRules.Content
