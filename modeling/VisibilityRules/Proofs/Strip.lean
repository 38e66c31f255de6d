import VisibilityRules.Content.Strip
import VisibilityRules.Proofs.Deletion

set_option autoImplicit false

/-!
What the strip pass leaves of a text. The hidden occurrences are deleted byte by byte and nothing
else is; told along the search, each tag that is read is dropped or kept as a whole.
-/
namespace VisibilityRules.Content

open Shortcode
open Text.Utf8 (size encode ofString)

theorem fitsIn_of_standsIn {o : Occurrence} {text : List Char} (stands : o.StandsIn text) :
    o.span.FitsIn 0 text := by
  obtain ⟨before, after, rfl, start⟩ := stands
  have stop : size (before ++ o.text.toList) = o.stop := by simp [Occurrence.stop, start]
  exact ⟨Nat.le_of_lt o.start_lt_stop, ⟨before, _, rfl, (Nat.zero_add _).trans start⟩,
    .inl ⟨before ++ o.text.toList, after, by simp, (Nat.zero_add _).trans stop⟩⟩

theorem length_outside_occurrences {found : List Occurrence} {bytes : List UInt8}
    (apart : found.Pairwise fun a b => a.stop ≤ b.start)
    (inside : ∀ o ∈ found, o.stop ≤ bytes.length) :
    (outside (found.map Occurrence.span) 0 bytes).length + (found.map (·.span.length)).sum =
      bytes.length := by
  have fits : ∀ span ∈ found.map Occurrence.span,
      0 ≤ span.start ∧ span.start ≤ span.stop ∧ span.stop ≤ 0 + bytes.length := by
    intro span listed
    obtain ⟨o, mem, rfl⟩ := List.mem_map.mp listed
    exact ⟨Nat.zero_le _, Nat.le_of_lt o.start_lt_stop, by simpa using inside o mem⟩
  have counted := length_outside (List.pairwise_map.mpr apart) fits
  rwa [List.map_map] at counted

variable (policy : Policy) (visitor : Visitor) (element text : String)

def hiddenIn : List Occurrence := (findAll element text).filter (isHidden policy visitor)

variable {policy visitor element text}

theorem standsIn_of_mem_findAll {o : Occurrence} (mem : o ∈ findAll element text) :
    o.StandsIn text.toList := occurrences_standIn (mem_findAll mem)

theorem mem_hiddenIn {o : Occurrence} :
    o ∈ hiddenIn policy visitor element text ↔
      o ∈ findAll element text ∧ isHidden policy visitor o = true := List.mem_filter

theorem hiddenIn_pairwise :
    (hiddenIn policy visitor element text).Pairwise fun a b => a.stop ≤ b.start :=
  (findAll_pairwise element text).filter _

theorem ofString_strip (policy : Policy) (visitor : Visitor) (element text : String) :
    ofString (strip policy visitor element text) =
      outside ((hiddenIn policy visitor element text).map Occurrence.span) 0 (ofString text) := by
  have fits : ∀ span ∈ (hiddenIn policy visitor element text).map Occurrence.span,
      span.FitsIn 0 text.toList := by
    intro span listed
    obtain ⟨o, mem, rfl⟩ := List.mem_map.mp listed
    exact fitsIn_of_standsIn (standsIn_of_mem_findAll (mem_hiddenIn.mp mem).1)
  exact ofString_removeSpans fits

theorem length_strip (policy : Policy) (visitor : Visitor) (element text : String) :
    (ofString (strip policy visitor element text)).length +
      ((hiddenIn policy visitor element text).map (·.span.length)).sum =
        (ofString text).length := by
  rw [ofString_strip]
  refine length_outside_occurrences hiddenIn_pairwise fun o mem => ?_
  obtain ⟨before, after, whole, start⟩ := standsIn_of_mem_findAll (mem_hiddenIn.mp mem).1
  simp [ofString, whole, Occurrence.stop, start]

theorem strip_eq_self_iff :
    strip policy visitor element text = text ↔
      ∀ o ∈ findAll element text, isHidden policy visitor o = false := by
  constructor
  · intro same o mem
    have counted := length_strip policy visitor element text
    rw [same, Nat.add_eq_left, List.sum_eq_zero_iff_forall_eq_nat] at counted
    cases hides : isHidden policy visitor o with
    | false => rfl
    | true =>
      have listed : o ∈ hiddenIn policy visitor element text := mem_hiddenIn.mpr ⟨mem, hides⟩
      have zero : o.stop - o.start = 0 := counted _ (List.mem_map_of_mem listed)
      have := o.start_lt_stop
      omega
  · intro visible
    have none : hiddenIn policy visitor element text = [] := by
      rw [hiddenIn, List.filter_eq_nil_iff]
      intro o mem
      simp [visible o mem]
    have bytes := ofString_strip policy visitor element text
    rw [none, List.map_nil, outside_nil] at bytes
    exact Text.Utf8.ofString_inj.mp bytes

theorem strip_sublist (policy : Policy) (visitor : Visitor) (element text : String) :
    (strip policy visitor element text).toList.Sublist text.toList := by
  rw [strip, removeAll, removeSpans, String.toList_ofList]
  apply cut_sublist
  intro span listed
  obtain ⟨o, _, rfl⟩ := List.mem_map.mp listed
  exact Nat.le_of_lt o.start_lt_stop

theorem toList_strip (name : IsName element.toList) :
    (strip policy visitor element text).toList =
      without (isHidden policy visitor) element.toList text.toList := by
  have same : ofString (strip policy visitor element text) =
      ofString (String.ofList (without (isHidden policy visitor) element.toList text.toList)) := by
    rw [ofString_strip, ofString, ofString, String.toList_ofList, hiddenIn, name.findAll_eq]
    exact (encode_without (fun _ _ => rfl) 0 text.toList).symm
  rw [Text.Utf8.ofString_inj.mp same, String.toList_ofList]

theorem hidden_beside_kept {o h : Occurrence} (mem : o ∈ findAll element text)
    (kept : isHidden policy visitor o = false) (hidden : h ∈ hiddenIn policy visitor element text) :
    h.stop ≤ o.start ∨ o.stop ≤ h.start := by
  obtain ⟨found, hides⟩ := mem_hiddenIn.mp hidden
  refine findAll_apart found mem ?_
  rintro rfl
  simp [kept] at hides

theorem kept_in_strip {o : Occurrence} (mem : o ∈ findAll element text)
    (kept : isHidden policy visitor o = false) :
    ∃ before after, ofString (strip policy visitor element text) =
        before ++ (ofString o.text ++ after) ∧
      before.length + (((hiddenIn policy visitor element text).filter (·.start < o.start)).map
        (·.span.length)).sum = o.start := by
  obtain ⟨before, after, whole, start⟩ := standsIn_of_mem_findAll mem
  have split : ofString text = encode before ++ (ofString o.text ++ encode after) := by
    simp [ofString, whole]
  have beside {h : Occurrence} (hidden : h ∈ hiddenIn policy visitor element text) :=
    hidden_beside_kept mem kept hidden
  have own : outside ((hiddenIn policy visitor element text).map Occurrence.span)
      (0 + (encode before).length) (ofString o.text) = ofString o.text := by
    refine outside_of_free fun span mem => ?_
    obtain ⟨h, hidden, rfl⟩ := List.mem_map.mp mem
    simpa [ofString, start, Occurrence.stop] using beside hidden
  -- Only the hidden occurrences that start earlier reach into what stands before.
  have front : outside ((hiddenIn policy visitor element text).map Occurrence.span) 0
        (encode before) =
      outside (((hiddenIn policy visitor element text).filter (·.start < o.start)).map
        Occurrence.span) 0 (encode before) := by
    refine outside_congr fun i _ upper => ?_
    rw [Text.Utf8.length_encode, Nat.zero_add, start] at upper
    simp only [List.any_map, List.any_filter, Function.comp_def, List.any_eq_true,
      Span.covers_iff, Bool.and_eq_true, decide_eq_true_eq, Occurrence.start_span]
    constructor
    · rintro ⟨h, hidden, lower, inside⟩
      exact ⟨h, hidden, Nat.lt_of_le_of_lt lower upper, lower, inside⟩
    · rintro ⟨h, hidden, _, inside⟩
      exact ⟨h, hidden, inside⟩
  have ends : ∀ h ∈ (hiddenIn policy visitor element text).filter (·.start < o.start),
      h.stop ≤ (encode before).length := by
    intro h mem
    obtain ⟨hidden, earlier⟩ := List.mem_filter.mp mem
    have earlier : h.start < o.start := by simpa using earlier
    have := beside hidden
    have := o.start_lt_stop
    rw [Text.Utf8.length_encode, start]
    omega
  have counted := length_outside_occurrences (hiddenIn_pairwise.filter _) ends
  have pieces := ofString_strip policy visitor element text
  rw [split, outside_append, outside_append, own] at pieces
  refine ⟨_, _, pieces, ?_⟩
  rw [front]
  simpa [start] using counted

/-- The strip pass deletes the bytes of the hidden occurrences and no others. The other occurrences
found stay whole and move up by what is deleted before them. -/
theorem strip_deletes_hidden (policy : Policy) (visitor : Visitor) (element text : String) :
    let hidden := (findAll element text).filter (isHidden policy visitor)
    let stripped := strip policy visitor element text
    ofString stripped = outside (hidden.map Occurrence.span) 0 (ofString text) ∧
      (∀ o ∈ findAll element text, isHidden policy visitor o = false →
        ∃ before after, ofString stripped = before ++ (ofString o.text ++ after) ∧
          before.length + ((hidden.filter (·.start < o.start)).map (·.span.length)).sum =
            o.start) ∧
      (ofString stripped).length + (hidden.map (·.span.length)).sum = (ofString text).length :=
  ⟨ofString_strip .., fun _ mem kept => kept_in_strip mem kept, length_strip ..⟩

end VisibilityRules.Content
