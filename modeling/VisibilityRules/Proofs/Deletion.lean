import VisibilityRules.Proofs.Removal
import VisibilityRules.Proofs.Scan

set_option autoImplicit false

/-!
Dropping tags while going through a text, and going through what is left once more. The second
search goes along with the first one up to a tag that reaches over a place where something was
dropped.
-/
namespace VisibilityRules.Shortcode

open Text.Utf8 (size encode)

def without (picked : Occurrence → Bool) (tag : List Char) : List Char → List Char
  | [] => []
  | c :: rest =>
    if c = '[' then
      match _ : readOccurrence tag 0 rest with
      | some (o, after) =>
        (if picked o then [] else o.text.toList) ++ without picked tag after
      | none => '[' :: without picked tag rest
    else c :: without picked tag rest
termination_by text => text.length
decreasing_by
  next read => have := readOccurrence_length read; simp only [List.length_cons]; omega
  next => simp
  next => simp

variable {tag : List Char} {picked : Occurrence → Bool}

@[simp] theorem without_nil : without picked tag [] = [] := by
  rw [without]

theorem without_skipped {c : Char} {rest : List Char} (skipped : Skipped tag c rest) :
    without picked tag (c :: rest) = c :: without picked tag rest := by
  rw [without]
  by_cases bracket : c = '['
  · subst bracket
    rw [if_pos rfl, skipped rfl]
  · rw [if_neg bracket]

theorem without_picked {rest after : List Char} {o : Occurrence}
    (found : readOccurrence tag 0 rest = some (o, after)) (pick : picked o = true) :
    without picked tag ('[' :: rest) = without picked tag after := by
  rw [without, if_pos rfl, found]
  simp only [if_pos pick, List.nil_append]

theorem without_kept {rest after : List Char} {o : Occurrence}
    (found : readOccurrence tag 0 rest = some (o, after)) (keep : picked o = false) :
    without picked tag ('[' :: rest) = o.text.toList ++ without picked tag after := by
  rw [without, if_pos rfl, found]
  simp only [keep, Bool.false_eq_true, if_false]

theorem without_append {front text : List Char} (plain : '[' ∉ front) :
    without picked tag (front ++ text) = front ++ without picked tag text := by
  induction front with
  | nil => rfl
  | cons c front ih =>
    rw [List.mem_cons, not_or] at plain
    rw [List.cons_append, without_skipped fun bracket => absurd bracket.symm plain.1, ih plain.2]
    rfl

def pickedSpans (picked : Occurrence → Bool) (tag : List Char) (position : Nat)
    (text : List Char) : List Span :=
  ((occurrences tag position text).filter picked).map Occurrence.span

@[simp] theorem pickedSpans_nil (position : Nat) : pickedSpans picked tag position [] = [] := by
  simp [pickedSpans]

theorem pickedSpans_skipped {position : Nat} {c : Char} {rest : List Char}
    (skipped : Skipped tag c rest) :
    pickedSpans picked tag position (c :: rest) =
      pickedSpans picked tag (position + c.utf8Size) rest := by
  rw [pickedSpans, occurrences_skipped skipped]
  rfl

theorem pickedSpans_picked {position : Nat} {rest after : List Char} {o : Occurrence}
    (found : readOccurrence tag 0 rest = some (o, after)) (pick : picked (o.movedTo position)) :
    pickedSpans picked tag position ('[' :: rest) =
      (o.movedTo position).span ::
        pickedSpans picked tag (position + size o.text.toList) after := by
  rw [pickedSpans, occurrences_found found, List.filter_cons_of_pos pick]
  rfl

theorem pickedSpans_kept {position : Nat} {rest after : List Char} {o : Occurrence}
    (found : readOccurrence tag 0 rest = some (o, after))
    (keep : picked (o.movedTo position) = false) :
    pickedSpans picked tag position ('[' :: rest) =
      pickedSpans picked tag (position + size o.text.toList) after := by
  rw [pickedSpans, occurrences_found found, List.filter_cons_of_neg (by simp [keep])]
  rfl

theorem le_start_of_mem_pickedSpans {position : Nat} {text : List Char} {span : Span}
    (mem : span ∈ pickedSpans picked tag position text) : position ≤ span.start := by
  obtain ⟨o, listed, rfl⟩ := List.mem_map.mp mem
  exact le_start_of_mem_occurrences (List.mem_filter.mp listed).1

theorem encode_without (anywhere : ∀ o start, picked (Occurrence.movedTo start o) = picked o)
    (position : Nat) (text : List Char) :
    encode (without picked tag text) =
      outside (pickedSpans picked tag position text) position (encode text) := by
  have free {position later : Nat} {front text : List Char}
      (le : position + size front ≤ later) :
      outside (pickedSpans picked tag later text) position (encode front) = encode front := by
    refine outside_of_free fun span mem => .inr ?_
    have := le_start_of_mem_pickedSpans mem
    rw [Text.Utf8.length_encode]
    omega
  induction text using scan_induction tag generalizing position with
  | nil => simp [outside_nil]
  | skipped c rest skipped ih =>
    rw [without_skipped skipped, pickedSpans_skipped skipped,
      ← List.singleton_append, ← List.singleton_append (l := rest), Text.Utf8.encode_append,
      Text.Utf8.encode_append, outside_append, free (by simp), ih (position + c.utf8Size)]
    simp
  | found rest o after read ih =>
    rw [readOccurrence_text read, Text.Utf8.encode_append, outside_append,
      Text.Utf8.length_encode, ← readOccurrence_text read]
    cases pick : picked o with
    | true =>
      have gone : outside ((o.movedTo position).span ::
          pickedSpans picked tag (position + size o.text.toList) after) position
            (encode o.text.toList) = [] :=
        outside_of_covered (List.mem_cons_self ..) (Nat.le_refl _)
          (by rw [Text.Utf8.length_encode]; exact Nat.le_refl _)
      rw [without_picked read pick, pickedSpans_picked read (by rw [anywhere, pick]), gone,
        outside_behind (by exact Nat.le_refl _), ih (position + size o.text.toList)]
      rfl
    | false =>
      rw [without_kept read pick, pickedSpans_kept read (by rw [anywhere, pick]),
        Text.Utf8.encode_append, free (Nat.le_refl _), ih (position + size o.text.toList)]

/-- Where the pieces between spans meet after the spans are cut out, if `removed` bytes are gone
before them. -/
def seams (removed : Nat) : List Span → List Nat
  | [] => []
  | span :: later => (span.start - removed) :: seams (removed + span.length) later

def Occurrence.ReachesOver (o : Occurrence) (places : List Nat) : Prop :=
  ∃ place ∈ places, o.start < place ∧ place < o.stop

theorem seams_skipped {place removed : Nat} {c : Char} {rest : List Char}
    (skipped : Skipped tag c rest) :
    seams removed (pickedSpans picked tag (place + removed) (c :: rest)) =
      seams removed (pickedSpans picked tag (place + c.utf8Size + removed) rest) := by
  rw [pickedSpans_skipped skipped, Nat.add_right_comm]

theorem reaching_of_read {place seam : Nat} {places : List Nat} {rest after : List Char}
    {o first : Occurrence} (read : readOccurrence tag 0 rest = some (first, after))
    (mem : o ∈ occurrences tag place ('[' :: rest)) (listed : seam ∈ places) (lower : place < seam)
    (upper : seam < place + size first.text.toList) :
    ∃ reaching ∈ occurrences tag place ('[' :: rest), reaching.start ≤ o.start ∧
      reaching.ReachesOver places := by
  refine ⟨first.movedTo place, ?_, le_start_of_mem_occurrences mem, seam, listed, lower, upper⟩
  rw [occurrences_found read]
  exact List.mem_cons_self ..

section

variable (anywhere : ∀ o start, picked (Occurrence.movedTo start o) = picked o)

include anywhere

theorem seams_picked {place removed : Nat} {rest after : List Char} {o : Occurrence}
    (found : readOccurrence tag 0 rest = some (o, after)) (pick : picked o = true) :
    seams removed (pickedSpans picked tag (place + removed) ('[' :: rest)) =
      place :: seams (removed + size o.text.toList)
        (pickedSpans picked tag (place + (removed + size o.text.toList)) after) := by
  have start : (o.movedTo (place + removed)).span.start - removed = place :=
    Nat.add_sub_cancel ..
  have length : (o.movedTo (place + removed)).span.length = size o.text.toList :=
    Nat.add_sub_cancel_left ..
  rw [pickedSpans_picked found (by rw [anywhere, pick]), seams, start, length, Nat.add_assoc]

theorem seams_kept {place removed : Nat} {rest after : List Char} {o : Occurrence}
    (found : readOccurrence tag 0 rest = some (o, after)) (keep : picked o = false) :
    seams removed (pickedSpans picked tag (place + removed) ('[' :: rest)) =
      seams removed (pickedSpans picked tag (place + size o.text.toList + removed) after) := by
  rw [pickedSpans_kept found (by rw [anywhere, keep]), Nat.add_right_comm]

theorem le_of_mem_seams {place removed seam : Nat} {text : List Char}
    (mem : seam ∈ seams removed (pickedSpans picked tag (place + removed) text)) :
    place ≤ seam := by
  induction text using scan_induction tag generalizing place removed with
  | nil => simp [seams] at mem
  | skipped c rest skipped ih =>
    rw [seams_skipped skipped] at mem
    exact Nat.le_trans (Nat.le_add_right ..) (ih mem)
  | found rest o after read ih =>
    cases pick : picked o with
    | true =>
      rw [seams_picked anywhere read pick, List.mem_cons] at mem
      rcases mem with rfl | mem
      · exact Nat.le_refl _
      · exact ih mem
    | false =>
      rw [seams_kept anywhere read pick] at mem
      exact Nat.le_trans (Nat.le_add_right ..) (ih mem)

theorem front_of_without (place removed : Nat) {text front : List Char}
    (stands : front <+: without picked tag text) :
    front <+: text ∨ ∃ seam ∈ seams removed (pickedSpans picked tag (place + removed) text),
      seam < place + size front := by
  induction text using scan_induction tag generalizing place removed front with
  | nil => exact .inl (by simpa using stands)
  | skipped c rest skipped ih =>
    rw [without_skipped skipped] at stands
    rw [seams_skipped skipped]
    cases front with
    | nil => exact .inl List.nil_prefix
    | cons d front =>
      obtain ⟨rfl, behind⟩ := List.cons_prefix_cons.mp stands
      rcases ih (place + d.utf8Size) removed behind with same | ⟨seam, mem, reached⟩
      · exact .inl (List.cons_prefix_cons.mpr ⟨rfl, same⟩)
      · refine .inr ⟨seam, mem, ?_⟩
        rw [Text.Utf8.size_cons]
        omega
  | found rest o after read ih =>
    cases pick : picked o with
    | true =>
      -- What is left begins at a seam here, so every text but the empty one reaches it.
      rw [seams_picked anywhere read pick]
      by_cases empty : front = []
      · subst empty
        exact .inl List.nil_prefix
      · refine .inr ⟨place, List.mem_cons_self .., ?_⟩
        have := mt Text.Utf8.size_eq_zero_iff.mp empty
        omega
    | false =>
      rw [without_kept read pick] at stands
      rw [seams_kept anywhere read pick, readOccurrence_text read]
      -- The front ends within the tag or goes on behind it.
      rcases List.prefix_or_prefix_of_prefix stands (List.prefix_append ..) with
        inside | ⟨more, rfl⟩
      · exact .inl (List.prefix_append_of_prefix inside)
      · rw [List.prefix_append_right_inj] at stands ⊢
        rcases ih (place + size o.text.toList) removed stands with same | ⟨seam, mem, reached⟩
        · exact .inl same
        · refine .inr ⟨seam, mem, ?_⟩
          rw [Text.Utf8.size_append]
          omega

/-- A tag picked that is found in the text that is left stands at or behind a tag that reaches over
a seam. -/
theorem reaching_of_found_again (name : IsName tag) (place removed : Nat) {text : List Char}
    {o : Occurrence} (mem : o ∈ occurrences tag place (without picked tag text))
    (pick : picked o = true) :
    ∃ reaching ∈ occurrences tag place (without picked tag text), reaching.start ≤ o.start ∧
      reaching.ReachesOver (seams removed (pickedSpans picked tag (place + removed) text)) := by
  induction text using scan_induction tag generalizing place removed with
  | nil => simp at mem
  | skipped c rest skipped ih =>
    by_cases again : Skipped tag c (without picked tag rest)
    · rw [without_skipped skipped, occurrences_skipped again] at mem ⊢
      rw [seams_skipped skipped]
      exact ih _ _ mem
    · simp only [Skipped, Classical.not_imp] at again
      obtain ⟨rfl, again⟩ := again
      obtain ⟨⟨first, after⟩, read⟩ := Option.ne_none_iff_exists'.mp again
      have stands : first.text.toList <+: without picked tag ('[' :: rest) :=
        ⟨after, by rw [without_skipped skipped, readOccurrence_text read]⟩
      rcases front_of_without anywhere place removed stands with ⟨later, same⟩ | reached
      -- The tag has stood in the text before, where it would have been read.
      · obtain ⟨inner, opening, opens⟩ := readOccurrence_opens read later
        rw [same] at opening
        obtain rfl := (List.cons.inj opening).2
        have missed : (readOccurrence tag 0 rest).isSome := readOccurrence_isSome_iff.mpr opens
        simp [skipped rfl] at missed
      · obtain ⟨seam, listed, upper⟩ := reached
        rw [seams_skipped skipped] at listed ⊢
        have lower := le_of_mem_seams anywhere listed
        rw [without_skipped skipped] at mem ⊢
        exact reaching_of_read read mem listed (Nat.lt_of_succ_le lower) upper
  | found rest o' after read ih =>
    cases keep : picked o' with
    | true =>
      rw [without_picked read keep] at mem ⊢
      rw [seams_picked anywhere read keep]
      obtain ⟨reaching, found, earlier, seam, listed, inside⟩ := ih place _ mem
      exact ⟨reaching, found, earlier, seam, List.mem_cons_of_mem _ listed, inside⟩
    | false =>
      obtain ⟨inner, own, opens⟩ := readOccurrence_opens read (without picked tag after)
      obtain ⟨⟨first, later⟩, again⟩ := Option.isSome_iff_exists.mp
        (readOccurrence_isSome_iff.mpr opens)
      have stands : first.text.toList <+: without picked tag ('[' :: rest) :=
        ⟨later, by rw [without_kept read keep, own, readOccurrence_text again]⟩
      rcases front_of_without anywhere place removed stands with same | ⟨seam, listed, upper⟩
      -- The tag is the one that was kept, and both searches go on behind it.
      · obtain rfl := readOccurrence_unique name read again same ⟨_, own⟩
        obtain rfl : without picked tag after = later := by
          rw [readOccurrence_text again] at own
          exact List.append_cancel_left own
        rw [without_kept read keep, own, occurrences_found again] at mem ⊢
        rw [seams_kept anywhere read keep]
        rcases List.mem_cons.mp mem with rfl | mem
        · simp [anywhere, keep] at pick
        · obtain ⟨reaching, found, earlier⟩ := ih _ _ mem
          exact ⟨reaching, List.mem_cons_of_mem _ found, earlier⟩
      · rw [seams_kept anywhere read keep] at listed ⊢
        have lower := le_of_mem_seams anywhere listed
        have := o'.size_text_pos
        rw [without_kept read keep, own] at mem ⊢
        exact reaching_of_read again mem listed (by omega) upper

end

end VisibilityRules.Shortcode
