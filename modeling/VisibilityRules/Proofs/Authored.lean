import VisibilityRules.Proofs.AttributeList
import VisibilityRules.Proofs.Literal

set_option autoImplicit false

/-!
A shortcode as an author writes it, around a body. The rules written into it are the ones by which
the strip pass decides, and they decide over this shortcode alone.
-/
namespace VisibilityRules.Content

open Shortcode

/-- What follows the name of a tag whose rule is written out. -/
def ruleTail (attributes : Attributes) (form : Form) : Tail :=
  ⟨(" " ++ attributes.render).toList, form, false⟩

section

variable {attributes : Attributes} {form : Form} (plain : attributes.ArePlain)
include plain

theorem wellFormed_ruleTail {tag : List Char}
    (open_body : ∀ body, form = .enclosing body → ¬ closing tag <:+: body.toList) :
    (ruleTail attributes form).WellFormed tag where
  name_ends := by
    intro c head
    obtain rfl : ' ' = c := by simpa [ruleTail] using head
    decide
  unclosed := not_mem_render plain (by simp)
  no_slash := fun _ => getLast_render attributes
  first_closing := open_body

theorem isHidden_ruleTail (policy : Policy) (visitor : Visitor) (tag : List Char) :
    isHidden policy visitor ((ruleTail attributes form).made tag 0 false) =
      policy.hides attributes visitor := by
  have read : ((ruleTail attributes form).made tag 0 false).attributes = attributes := by
    simp only [Occurrence.attributes, Tail.made, ruleTail, String.ofList_toList,
      readAttributes_render plain]
  rw [isHidden, read]
  rfl

end

def authored (element : String) (attributes : Attributes) (body : String) : String :=
  "[" ++ element ++ " " ++ attributes.render ++ "]" ++ body ++ Occurrence.closingTag element

theorem text_made_enclosing_rule (element : String) (attributes : Attributes) (body : String) :
    ((ruleTail attributes (.enclosing body)).made element.toList 0 false).text =
      authored element attributes body := by
  apply String.toList_inj.mp
  simp [authored, ruleTail, extra, Tail.text, Form.text]

/-- An authored shortcode is cut out just if its rules hide it, and what stands behind it is
stripped as if it stood alone. -/
theorem strip_authored (policy : Policy) (visitor : Visitor) (element before : String)
    (attributes : Attributes) (body after : String) (valid : ElementName.problem? element = none)
    (plain : attributes.ArePlain) (no_tag : '[' ∉ before.toList)
    (open_body : ¬ (Occurrence.closingTag element).toList <:+: body.toList)
    (apart : after.toList.head? ≠ some ']') :
    strip policy visitor element (before ++ authored element attributes body ++ after) =
      before ++
        (if policy.hides attributes visitor then "" else authored element attributes body) ++
          strip policy visitor element after := by
  rw [toList_closingTag] at open_body
  have well : (ruleTail attributes (.enclosing body)).WellFormed element.toList :=
    wellFormed_ruleTail plain fun _ same => Form.enclosing.inj same ▸ open_body
  have stops : (ruleTail attributes (.enclosing body)).StopsAt element.toList after.toList :=
    ⟨nofun, fun _ => apart⟩
  have stripped := strip_tag policy visitor false (isName_iff.mpr valid) no_tag well stops
  rwa [text_made_enclosing_rule, isHidden_ruleTail plain] at stripped

theorem strip_authored_between :
    let attributes : Attributes := .ofEntries [("showfor", "logged_in"), ("note-1", "é [a/b")]
    let policy : Policy := .ofPredicates ∅
    let visitor : Visitor := .anonymous ⟨0, 0⟩
    attributes.ArePlain ∧ policy.hides attributes visitor = true ∧
      strip policy visitor "tag" ("see " ++ authored "tag" attributes "[/ta" ++ " and [tag]") =
        "see  and [tag]" := by
  intro attributes policy visitor
  have plain : attributes.ArePlain := by decide +kernel
  have hides : policy.hides attributes visitor = true := by decide +kernel
  have open_body : ¬ (Occurrence.closingTag "tag").toList <:+: "[/ta".toList := by decide
  have rest : strip policy visitor "tag" " and [tag]" = " and [tag]" := by decide +kernel
  have stripped := strip_authored policy visitor "tag" "see " attributes "[/ta" " and [tag]"
    (by decide) plain (by decide) open_body (by decide)
  rw [hides, if_pos rfl, rest] at stripped
  exact ⟨plain, hides, stripped⟩

end VisibilityRules.Content
