import VisibilityRules.Proofs.Strip

set_option autoImplicit false

/-!
A tag in doubled brackets. It is literal text as long as no closing tag follows; if one does, the
text up to there is the body of an occurrence that begins with the doubled bracket.
-/
namespace VisibilityRules.Content

open Shortcode
open Text.Utf8 (size)

variable (policy : Policy) (visitor : Visitor) {element before attributes after : String}

section

variable (leading : Bool) {tail : Tail} (name : IsName element.toList)
  (plain : '[' ∉ before.toList) (well : tail.WellFormed element.toList)
  (stops : tail.StopsAt element.toList after.toList)

include name plain well stops

/-- Text without brackets is left alone, and behind the first tag the strip pass starts afresh. -/
theorem strip_tag :
    strip policy visitor element (before ++ (tail.made element.toList 0 leading).text ++ after) =
      before ++ (if isHidden policy visitor (tail.made element.toList 0 leading) then ""
        else (tail.made element.toList 0 leading).text) ++ strip policy visitor element after := by
  have read : readOccurrence element.toList 0 _ =
      some (tail.made element.toList 0 leading, after.toList) :=
    readOccurrence_complete name well stops
  have whole : (before ++ (tail.made element.toList 0 leading).text ++ after).toList =
      before.toList ++ '[' :: (extra '[' leading ++
        (element.toList ++ (tail.text element.toList ++ after.toList))) := by simp
  apply String.toList_inj.mp
  rw [toList_strip name, whole, without_append plain, String.toList_append, String.toList_append,
    toList_strip name, List.append_assoc]
  cases hides : isHidden policy visitor (tail.made element.toList 0 leading) with
  | true => rw [without_picked read hides, if_pos rfl, String.toList_empty, List.nil_append]
  | false => rw [without_kept read hides, if_neg Bool.false_ne_true]

theorem findAll_tag :
    ∃ later,
      findAll element (before ++ (tail.made element.toList 0 leading).text ++ after) =
        (tail.made element.toList 0 leading).movedTo (size before.toList) :: later ∧
      ∀ o ∈ later, size before.toList < o.start := by
  have read : readOccurrence element.toList 0 _ =
      some (tail.made element.toList 0 leading, after.toList) :=
    readOccurrence_complete name well stops
  have whole : (before ++ (tail.made element.toList 0 leading).text ++ after).toList =
      before.toList ++ '[' :: (extra '[' leading ++
        (element.toList ++ (tail.text element.toList ++ after.toList))) := by simp
  refine ⟨_, by rw [name.findAll_eq, whole, occurrences_append plain, Nat.zero_add,
    occurrences_found read], fun o mem => ?_⟩
  exact Nat.lt_of_lt_of_le (Nat.lt_add_of_pos_right (Occurrence.size_text_pos _))
    (le_start_of_mem_occurrences mem)

end

def literal (element attributes : String) : String := "[[" ++ element ++ attributes ++ "]]"

def enclosed (element body : String) (trailing : Bool) : String :=
  body ++ Occurrence.closingTag element ++ (if trailing then "]" else "")

theorem toList_enclosed (element body : String) (trailing : Bool) :
    (enclosed element body trailing).toList =
      body.toList ++ (closing element.toList ++ extra ']' trailing) := by
  cases trailing <;> simp [enclosed, extra]

theorem text_made_alone (element attributes : String) :
    (Tail.made element.toList 0 true ⟨attributes.toList, .lone, true⟩).text =
      literal element attributes := by
  apply String.toList_inj.mp
  simp [literal, extra, Tail.text, Form.text]

theorem text_made_enclosing (element attributes body : String) (trailing : Bool) :
    (Tail.made element.toList 0 true ⟨attributes.toList, .enclosing ("]" ++ body), trailing⟩).text =
      literal element attributes ++ enclosed element body trailing := by
  apply String.toList_inj.mp
  simp [literal, toList_enclosed, extra, Tail.text, Form.text]

section

variable (name : IsName element.toList) (plain : '[' ∉ before.toList)
  (name_ends : ∀ c, attributes.toList.head? = some c → isNameChar c = false)
  (unclosed : ']' ∉ attributes.toList) (no_slash : attributes.toList.getLast? ≠ some '/')

include name_ends unclosed no_slash

theorem wellFormed_alone (tag : List Char) :
    Tail.WellFormed tag ⟨attributes.toList, .lone, true⟩ :=
  ⟨name_ends, unclosed, fun _ => no_slash, by simp⟩

theorem wellFormed_enclosing {tag : List Char} {body : String} (trailing : Bool)
    (free : ¬ closing tag <:+: body.toList) :
    Tail.WellFormed tag ⟨attributes.toList, .enclosing ("]" ++ body), trailing⟩ := by
  refine ⟨name_ends, unclosed, fun _ => no_slash, ?_⟩
  rintro _ ⟨⟩ closed
  rw [String.toList_append] at closed
  exact free ((closing_infix_extra_append true).mp closed)

include name plain

theorem strip_literal_alone (missing : ¬ closing element.toList <:+: after.toList) :
    strip policy visitor element (before ++ literal element attributes ++ after) =
      before ++ literal element attributes ++ strip policy visitor element after := by
  have stripped := strip_tag policy visitor true name plain
    (wellFormed_alone name_ends unclosed no_slash element.toList) ⟨fun _ => missing, by simp⟩
  rw [text_made_alone] at stripped
  rw [stripped, if_neg (by simp [isHidden, Occurrence.isEscaped, Tail.made])]

theorem findAll_literal_alone (missing : ¬ closing element.toList <:+: after.toList) :
    ∃ o ∈ findAll element (before ++ literal element attributes ++ after),
      o.start = size before.toList ∧ o.text = literal element attributes := by
  obtain ⟨later, found, _⟩ := findAll_tag true name plain
    (wellFormed_alone name_ends unclosed no_slash element.toList) ⟨fun _ => missing, by simp⟩
  rw [text_made_alone] at found
  rw [found]
  exact ⟨_, List.mem_cons_self .., rfl, text_made_alone ..⟩

section

variable {body rest : String} {trailing : Bool} (free : ¬ closing element.toList <:+: body.toList)
  (no_bracket : trailing = false → rest.toList.head? ≠ some ']')

include free no_bracket

theorem strip_literal_enclosing :
    strip policy visitor element
        (before ++ literal element attributes ++ (enclosed element body trailing ++ rest)) =
      before ++ (if !trailing && policy.hides (readAttributes attributes) visitor then ""
        else literal element attributes ++ enclosed element body trailing) ++
          strip policy visitor element rest := by
  have stripped := strip_tag policy visitor true name plain
    (wellFormed_enclosing name_ends unclosed no_slash trailing free) ⟨by simp, no_bracket⟩
  have hides : isHidden policy visitor (Tail.made element.toList 0 true
      ⟨attributes.toList, .enclosing ("]" ++ body), trailing⟩) =
        (!trailing && policy.hides (readAttributes attributes) visitor) := by
    simp [isHidden, Occurrence.isEscaped, Occurrence.attributes, Tail.made]
  rw [text_made_enclosing, hides] at stripped
  rw [← stripped]
  simp only [String.append_assoc]

theorem strip_literal_enclosing_eq_iff {kept : String} :
    strip policy visitor element
        (before ++ literal element attributes ++ (enclosed element body trailing ++ rest)) =
        before ++ literal element attributes ++ kept ↔
      if !trailing && policy.hides (readAttributes attributes) visitor then
        strip policy visitor element rest = literal element attributes ++ kept
      else kept = enclosed element body trailing ++ strip policy visitor element rest := by
  rw [strip_literal_enclosing policy visitor name plain name_ends unclosed no_slash free no_bracket]
  cases !trailing && policy.hides (readAttributes attributes) visitor with
  | true => simp [← String.toList_inj]
  | false => simp [← String.toList_inj, eq_comm]

theorem findAll_literal_enclosing {o : Occurrence}
    (mem : o ∈ findAll element
      (before ++ literal element attributes ++ (enclosed element body trailing ++ rest)))
    (start : o.start = size before.toList) :
    o.text = literal element attributes ++ enclosed element body trailing := by
  obtain ⟨later, found, behind⟩ := findAll_tag true name plain
    (wellFormed_enclosing name_ends unclosed no_slash trailing free) ⟨by simp, no_bracket⟩
  rw [text_made_enclosing, ← String.append_assoc, String.append_assoc] at found
  rw [found] at mem
  rcases List.mem_cons.mp mem with rfl | mem
  · exact text_made_enclosing ..
  · have := behind o mem
    omega

end

end

/-- A tag in doubled brackets is an occurrence of its own, and so literal text, just if no closing
tag follows it. The strip pass keeps it and goes on behind it in that case, and in others only if
stripping up to the first closing tag happens to come to the same. -/
theorem strip_literal_iff (policy : Policy) (visitor : Visitor)
    (element before attributes after : String) (valid : ElementName.problem? element = none)
    (plain : '[' ∉ before.toList)
    (name_ends : ∀ c, attributes.toList.head? = some c → isNameChar c = false)
    (unclosed : ']' ∉ attributes.toList) (no_slash : attributes.toList.getLast? ≠ some '/') :
    let text := before ++ literal element attributes ++ after
    ((∃ o ∈ findAll element text, o.start = size before.toList ∧
        o.text = literal element attributes) ↔ ¬ closing element.toList <:+: after.toList) ∧
    (strip policy visitor element text =
        before ++ literal element attributes ++ strip policy visitor element after ↔
      ¬ closing element.toList <:+: after.toList ∨
      ∃ body trailing rest, after = enclosed element body trailing ++ rest ∧
        ¬ closing element.toList <:+: body.toList ∧
        (trailing = false → rest.toList.head? ≠ some ']') ∧
        if !trailing && policy.hides (readAttributes attributes) visitor then
          strip policy visitor element rest =
            literal element attributes ++ strip policy visitor element after
        else
          strip policy visitor element after =
            enclosed element body trailing ++ strip policy visitor element rest) := by
  intro text
  have name := isName_iff.mpr valid
  by_cases missing : closing element.toList <:+: after.toList
  -- Up to the first closing tag all belongs to the occurrence that begins with the literal.
  · obtain ⟨body, trailing, rest, whole, free, no_bracket⟩ := exists_first_closing missing
    obtain rfl : after = enclosed element (String.ofList body) trailing ++ String.ofList rest :=
      String.toList_inj.mp (by simp [toList_enclosed, whole])
    have free : ¬ closing element.toList <:+: (String.ofList body).toList := by simpa using free
    have no_bracket : trailing = false → (String.ofList rest).toList.head? ≠ some ']' := by
      simpa using no_bracket
    refine ⟨iff_of_false ?_ (not_not_intro missing), ?_, ?_⟩
    · rintro ⟨o, mem, start, alone⟩
      have longer := findAll_literal_enclosing name plain name_ends unclosed no_slash free
        no_bracket mem start
      rw [alone, ← String.toList_inj] at longer
      simp [toList_enclosed, closing] at longer
    · intro kept
      exact .inr ⟨_, trailing, _, rfl, free, no_bracket, (strip_literal_enclosing_eq_iff policy
        visitor name plain name_ends unclosed no_slash free no_bracket).mp kept⟩
    · rintro (absent | ⟨body', trailing', rest', same, free', no_bracket', kept⟩)
      · exact absurd missing absent
      · have := (strip_literal_enclosing_eq_iff policy visitor name plain name_ends unclosed
          no_slash free' no_bracket').mpr kept
        rwa [← same] at this
  · have reported := findAll_literal_alone name plain name_ends unclosed no_slash missing
    have stripped := strip_literal_alone policy visitor name plain name_ends unclosed no_slash
      missing
    exact ⟨iff_of_true reported missing, iff_of_true stripped (.inl missing)⟩

theorem strip_literal_iff_closing_behind :
    ElementName.problem? "tag" = none ∧
      ¬ ∃ o ∈ findAll "tag" ("see " ++ literal "tag" " a=1" ++ " and [tag]x[/tag]"),
        o.start = size "see ".toList ∧ o.text = literal "tag" " a=1" := by
  have name_ends : ∀ c, " a=1".toList.head? = some c → isNameChar c = false := by
    intro c head
    obtain rfl : ' ' = c := Option.some.inj head
    decide
  have exact_when := strip_literal_iff (.ofPredicates ∅) (.anonymous ⟨0, 0⟩) "tag" "see " " a=1"
    " and [tag]x[/tag]" (by decide) (by decide) name_ends (by decide) (by decide)
  have closed : closing "tag".toList <:+: " and [tag]x[/tag]".toList :=
    ⟨" and [tag]x".toList, [], by decide⟩
  exact ⟨by decide, fun reported => exact_when.1.mp reported closed⟩

theorem strip_literal_lost :
    let pass := strip (.ofPredicates ∅) (.anonymous ⟨0, 0⟩) "tag"
    pass "[[tag showfor=\"logged_in\"]] text [tag]x[/tag] end" = " end" ∧
      pass " text [tag]x[/tag] end" = " text [tag]x[/tag] end" := by
  decide +kernel

end VisibilityRules.Content
