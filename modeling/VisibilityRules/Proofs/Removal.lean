import Mathlib
import VisibilityRules.Proofs.Bytes
import VisibilityRules.Shortcode.Removal

set_option autoImplicit false

/-!
What is left of a text after spans have been cut out: its bytes at the positions that lie in no
span, however the spans are ordered and overlap.
-/
namespace VisibilityRules.Shortcode

open Text.Utf8 (size encode ofString)

/-- The bytes at positions outside all spans; the first byte has the position given. -/
def outside (spans : List Span) : Nat → List UInt8 → List UInt8
  | _, [] => []
  | position, b :: rest =>
    if spans.any (·.covers position) then outside spans (position + 1) rest
    else b :: outside spans (position + 1) rest

@[simp] theorem Span.covers_iff {span : Span} {position : Nat} :
    span.covers position = true ↔ span.start ≤ position ∧ position < span.stop := by
  simp [covers]

theorem any_covers_iff {spans : List Span} {position : Nat} :
    spans.any (·.covers position) = true ↔
      ∃ span ∈ spans, span.start ≤ position ∧ position < span.stop := by
  simp

theorem outside_append (spans : List Span) (position : Nat) (front back : List UInt8) :
    outside spans position (front ++ back) =
      outside spans position front ++ outside spans (position + front.length) back := by
  induction front generalizing position with
  | nil => simp [outside]
  | cons b front ih =>
    have next : position + 1 + front.length = position + (front.length + 1) := by omega
    by_cases covered : spans.any (·.covers position)
    · simp only [List.cons_append, outside, covered, if_true, ih, List.length_cons, next]
    · simp only [List.cons_append, outside, covered, Bool.false_eq_true, if_false, ih,
        List.length_cons, next]

theorem outside_congr {spans spans' : List Span} {position : Nat} {bytes : List UInt8}
    (same : ∀ i, position ≤ i → i < position + bytes.length →
      (spans.any (·.covers i) = true ↔ spans'.any (·.covers i) = true)) :
    outside spans position bytes = outside spans' position bytes := by
  induction bytes generalizing position with
  | nil => rfl
  | cons b bytes ih =>
    have here := Bool.eq_iff_iff.mpr (same position (by omega) (by simp))
    have later : outside spans (position + 1) bytes = outside spans' (position + 1) bytes :=
      ih fun i lower upper => same i (by omega) (by simp only [List.length_cons]; omega)
    simp only [outside, here, later]

theorem outside_nil (position : Nat) (bytes : List UInt8) : outside [] position bytes = bytes := by
  induction bytes generalizing position with
  | nil => rfl
  | cons b bytes ih => simp [outside, ih]

theorem outside_of_free {spans : List Span} {position : Nat} {bytes : List UInt8}
    (free : ∀ span ∈ spans, span.stop ≤ position ∨ position + bytes.length ≤ span.start) :
    outside spans position bytes = bytes := by
  refine Eq.trans (outside_congr fun i lower upper => ?_) (outside_nil position bytes)
  simp only [any_covers_iff, List.not_mem_nil, false_and, exists_false, iff_false]
  rintro ⟨span, mem, inside⟩
  have := free span mem
  omega

theorem outside_of_covered {spans : List Span} {span : Span} {position : Nat} {bytes : List UInt8}
    (mem : span ∈ spans) (start : span.start ≤ position)
    (stop : position + bytes.length ≤ span.stop) : outside spans position bytes = [] := by
  induction bytes generalizing position with
  | nil => rfl
  | cons b bytes ih =>
    rw [List.length_cons] at stop
    have here : spans.any (·.covers position) = true :=
      any_covers_iff.mpr ⟨span, mem, start, by omega⟩
    rw [outside, if_pos here]
    exact ih (by omega) (by omega)

theorem outside_behind {span : Span} {spans : List Span} {position : Nat} {bytes : List UInt8}
    (behind : span.stop ≤ position) :
    outside (span :: spans) position bytes = outside spans position bytes := by
  refine outside_congr fun i lower _ => ?_
  simp only [List.any_cons, Bool.or_eq_true, Span.covers_iff]
  exact or_iff_right (by omega)

theorem outside_piece {span : Span} {later : List Span} {here : Nat} (front kept rest : List UInt8)
    (ordered : span.start ≤ span.stop) (first : ∀ other ∈ later, span.start ≤ other.start)
    (start : here + front.length + kept.length = span.start) :
    outside (⟨0, here + front.length⟩ :: span :: later) here (front ++ (kept ++ rest)) =
      kept ++ outside (⟨0, span.stop⟩ :: later) (here + front.length) (kept ++ rest) := by
  have free : ∀ other ∈ (⟨0, here + front.length⟩ :: span :: later : List Span),
      other.stop ≤ here + front.length ∨ here + front.length + kept.length ≤ other.start := by
    intro other mem
    rcases List.mem_cons.mp mem with rfl | mem
    · exact .inl (Nat.le_refl _)
    · rcases List.mem_cons.mp mem with rfl | mem
      · exact .inr (Nat.le_of_eq start)
      · exact .inr (start ▸ first other mem)
  have gone : outside (⟨0, here + front.length⟩ :: span :: later) here front = [] :=
    outside_of_covered (List.mem_cons_self ..) (Nat.zero_le _) (Nat.le_refl _)
  have passed : outside (⟨0, span.stop⟩ :: later) (here + front.length) kept = [] :=
    outside_of_covered (List.mem_cons_self ..) (Nat.zero_le _) (start ▸ ordered)
  have same : outside (⟨0, here + front.length⟩ :: span :: later) span.start rest =
      outside (⟨0, span.stop⟩ :: later) span.start rest := by
    refine outside_congr fun i lower _ => ?_
    simp only [List.any_cons, Bool.or_eq_true, Span.covers_iff]
    rw [← or_assoc]
    exact or_congr_left (by omega)
  simp only [outside_append, gone, outside_of_free free, passed, start, same, List.nil_append]

theorem takeBytes_size (front back : List Char) :
    takeBytes (size front) (front ++ back) = front := by
  induction front with
  | nil =>
    cases back with
    | nil => rfl
    | cons c back =>
      have := c.utf8Size_pos
      simp only [Text.Utf8.size_nil, List.nil_append, takeBytes]
      exact if_neg (by omega)
  | cons c front ih =>
    simp only [Text.Utf8.size_cons, List.cons_append, takeBytes, Nat.le_add_right, if_true,
      Nat.add_sub_cancel_left, ih]

theorem dropBytes_size (front back : List Char) :
    dropBytes (size front) (front ++ back) = back := by
  induction front with
  | nil => simp [dropBytes]
  | cons c front ih =>
    have positive := c.utf8Size_pos
    obtain ⟨count, eq⟩ : ∃ count, size (c :: front) = count + 1 :=
      Nat.exists_eq_succ_of_ne_zero (by simp only [Text.Utf8.size_cons]; omega)
    rw [eq, List.cons_append, dropBytes, ← eq, Text.Utf8.size_cons, Nat.add_sub_cancel_left, ih]

theorem dropBytes_of_size_le {text : List Char} {count : Nat} (le : size text ≤ count) :
    dropBytes count text = [] := by
  induction text generalizing count with
  | nil => cases count <;> rfl
  | cons c text ih =>
    have positive := c.utf8Size_pos
    rw [Text.Utf8.size_cons] at le
    obtain ⟨n, rfl⟩ := Nat.exists_eq_succ_of_ne_zero (show count ≠ 0 by omega)
    rw [dropBytes]
    exact ih (by omega)

def IsBoundary (here : Nat) (text : List Char) (position : Nat) : Prop :=
  ∃ front back, text = front ++ back ∧ here + size front = position

theorem IsBoundary.behind {here position : Nat} {front back : List Char}
    (boundary : IsBoundary here (front ++ back) position) (le : here + size front ≤ position) :
    IsBoundary (here + size front) back position := by
  obtain ⟨front', back', split, rfl⟩ := boundary
  rcases List.append_eq_append_iff.mp split with ⟨middle, rfl, rfl⟩ | ⟨middle, rfl, rfl⟩
  · exact ⟨middle, back', rfl, by simp [Nat.add_assoc]⟩
  · rw [Text.Utf8.size_append] at le ⊢
    exact ⟨[], _, rfl, by simp; omega⟩

/-- A span begins and ends between characters; it may end behind the text. -/
structure Span.FitsIn (here : Nat) (text : List Char) (span : Span) : Prop where
  ordered : span.start ≤ span.stop
  start : IsBoundary here text span.start
  stop : IsBoundary here text span.stop ∨ here + size text ≤ span.stop

theorem Span.FitsIn.behind {here : Nat} {front back : List Char} {span : Span}
    (fits : span.FitsIn here (front ++ back)) (le : here + size front ≤ span.start) :
    span.FitsIn (here + size front) back := by
  refine ⟨fits.ordered, fits.start.behind le, ?_⟩
  rcases fits.stop with boundary | past
  · exact .inl (boundary.behind (Nat.le_trans le fits.ordered))
  · exact .inr (by rw [Text.Utf8.size_append] at past; omega)

theorem encode_cutSorted {spans : List Span} {here position : Nat} {text : List Char}
    (le : here ≤ position)
    (gone : IsBoundary here text position ∨ here + size text ≤ position)
    (sorted : spans.Pairwise fun a b => a.start ≤ b.start)
    (fits : ∀ span ∈ spans, span.FitsIn here text) :
    encode (cutSorted here position spans text) =
      outside (⟨0, position⟩ :: spans) here (encode text) := by
  -- All before `position` is gone, as if a span reached up to there.
  induction spans generalizing here position text with
  | nil =>
    rw [cutSorted]
    rcases gone with ⟨front, back, rfl, rfl⟩ | past
    · rw [Nat.add_sub_cancel_left, dropBytes_size, Text.Utf8.encode_append, outside_append,
        outside_of_covered (List.mem_cons_self ..) (Nat.zero_le _) (by simp),
        outside_of_free (by simp)]
      rfl
    · rw [dropBytes_of_size_le (by omega), outside_of_covered (List.mem_cons_self ..)
        (Nat.zero_le _) (by simpa using past)]
      rfl
  | cons span later ih =>
    obtain ⟨first, sorted⟩ := List.pairwise_cons.mp sorted
    have fit := fits span (by simp)
    have ordered := fit.ordered
    have fits : ∀ span ∈ later, span.FitsIn here text := fun span mem => fits span (by simp [mem])
    rw [cutSorted]
    split
    next passed =>
      rw [ih le gone sorted fits]
      refine outside_congr fun i _ _ => ?_
      simp only [List.any_cons, Bool.or_eq_true, Span.covers_iff]
      rw [← or_assoc]
      exact or_congr_left (by omega)
    next ahead =>
      split
      next touching =>
        rw [ih (by omega) fit.stop sorted fits]
        refine outside_congr fun i _ _ => ?_
        simp only [List.any_cons, Bool.or_eq_true, Span.covers_iff]
        rw [← or_assoc]
        exact or_congr_left (by omega)
      next apart =>
        -- A piece is kept, from `position` up to the span.
        obtain ⟨front, back, rfl, rfl⟩ : IsBoundary here text position := by
          obtain ⟨front, back, rfl, start⟩ := fit.start
          refine gone.resolve_right fun past => apart ?_
          rw [Text.Utf8.size_append] at past
          omega
        have fit := fit.behind (Nat.le_of_not_le apart)
        obtain ⟨kept, rest, rfl, start⟩ := fit.start
        rw [Nat.add_sub_cancel_left, dropBytes_size,
          show span.start - (here + size front) = size kept by omega]
        dsimp only
        rw [takeBytes_size, Text.Utf8.encode_append, ih (by omega) fit.stop sorted fun other mem =>
            (fits other mem).behind (by have := first other mem; omega)]
        have piece := outside_piece (encode front) (encode kept) (encode rest) ordered first
          (by simpa using start)
        simpa using piece.symm

theorem pairwise_sorted (spans : List Span) :
    (spans.mergeSort fun a b => a.start ≤ b.start).Pairwise fun a b => a.start ≤ b.start := by
  have order : (spans.mergeSort fun a b => a.start ≤ b.start).Pairwise
      fun a b => decide (a.start ≤ b.start) = true :=
    List.pairwise_mergeSort (by simp only [decide_eq_true_eq]; omega) (by simp; omega) spans
  exact order.imp of_decide_eq_true

theorem encode_cut {spans : List Span} {text : List Char}
    (fits : ∀ span ∈ spans, span.FitsIn 0 text) :
    encode (cut spans text) = outside spans 0 (encode text) := by
  have perm : (spans.mergeSort fun a b => a.start ≤ b.start).Perm spans := List.mergeSort_perm ..
  have cutting := encode_cutSorted (Nat.le_refl 0) (.inl ⟨[], text, rfl, rfl⟩)
    (pairwise_sorted spans) fun span mem => fits span (perm.mem_iff.mp mem)
  refine cutting.trans (outside_congr fun i _ _ => ?_)
  rw [List.any_cons, perm.any_eq]
  simp

theorem ofString_removeSpans {spans : List Span} {text : String}
    (fits : ∀ span ∈ spans, span.FitsIn 0 text.toList) :
    ofString (removeSpans text spans) = outside spans 0 (ofString text) := by
  rw [removeSpans, ofString, String.toList_ofList]
  exact encode_cut fits

@[simp] theorem dropBytes_nil (count : Nat) : dropBytes count [] = [] := by
  cases count <;> rfl

@[simp] theorem dropBytes_zero (text : List Char) : dropBytes 0 text = text := by
  cases text <;> rfl

theorem dropBytes_sublist_dropBytes {count fewer : Nat} (text : List Char) (le : fewer ≤ count) :
    (dropBytes count text).Sublist (dropBytes fewer text) := by
  induction text generalizing count fewer with
  | nil =>
    rw [dropBytes_nil]
    exact List.nil_sublist _
  | cons c text ih =>
    cases fewer with
    | zero =>
      rw [dropBytes_zero]
      cases count with
      | zero => exact .refl _
      | succ count =>
        have later := @ih (count + 1 - c.utf8Size) 0 (Nat.zero_le _)
        rw [dropBytes_zero] at later
        exact later.cons c
    | succ fewer =>
      obtain ⟨more, rfl⟩ := Nat.exists_eq_succ_of_ne_zero (show count ≠ 0 by omega)
      exact ih (Nat.sub_le_sub_right le _)

theorem takeBytes_append_dropBytes {count stop : Nat} (text : List Char) (le : count ≤ stop) :
    (takeBytes count text ++ dropBytes stop text).Sublist text := by
  refine (List.Sublist.append_left (dropBytes_sublist_dropBytes text le) _).trans ?_
  clear le
  induction text generalizing count with
  | nil => simp [takeBytes]
  | cons c text ih =>
    rw [takeBytes]
    split
    next whole =>
      have positive := c.utf8Size_pos
      obtain ⟨n, rfl⟩ := Nat.exists_eq_succ_of_ne_zero (show count ≠ 0 by omega)
      rw [dropBytes, List.cons_append]
      exact ih.cons_cons c
    next =>
      have fewer := dropBytes_sublist_dropBytes (c :: text) (Nat.zero_le count)
      rwa [dropBytes_zero] at fewer

/-- Characters are only taken away, whole and in place, even where a span begins inside of one. -/
theorem cutSorted_sublist {spans : List Span} {here position : Nat} {text : List Char}
    (ordered : ∀ span ∈ spans, span.start ≤ span.stop) :
    (cutSorted here position spans text).Sublist (dropBytes (position - here) text) := by
  induction spans generalizing here position text with
  | nil => exact .refl _
  | cons span later ih =>
    obtain ⟨first, ordered⟩ := List.forall_mem_cons.mp ordered
    rw [cutSorted]
    split
    next => exact ih ordered
    next ahead =>
      split
      next => exact (ih ordered).trans (dropBytes_sublist_dropBytes text (by omega))
      next =>
        have rest := @ih position span.stop (dropBytes (position - here) text) ordered
        exact (List.Sublist.append_left rest _).trans
          (takeBytes_append_dropBytes _ (Nat.sub_le_sub_right first position))

theorem cut_sublist {spans : List Span} (text : List Char)
    (ordered : ∀ span ∈ spans, span.start ≤ span.stop) : (cut spans text).Sublist text := by
  let sorted := spans.mergeSort fun a b => a.start ≤ b.start
  have perm : sorted.Perm spans := List.mergeSort_perm ..
  have kept := @cutSorted_sublist sorted 0 0 text fun span mem => ordered span (perm.mem_iff.mp mem)
  rwa [Nat.sub_zero, dropBytes_zero] at kept

theorem length_outside {spans : List Span} {position : Nat} {bytes : List UInt8}
    (apart : spans.Pairwise fun a b => a.stop ≤ b.start)
    (inside : ∀ span ∈ spans, position ≤ span.start ∧ span.start ≤ span.stop ∧
      span.stop ≤ position + bytes.length) :
    (outside spans position bytes).length + (spans.map Span.length).sum = bytes.length := by
  induction spans generalizing position bytes with
  | nil => simp [outside_nil]
  | cons span later ih =>
    obtain ⟨first, apart⟩ := List.pairwise_cons.mp apart
    obtain ⟨lower, ordered, upper⟩ := inside span (by simp)
    -- The bytes in front of the span stay, its own are gone, and the rest is left to `later`.
    obtain ⟨front, behind, rfl, reach⟩ : ∃ front behind, bytes = front ++ behind ∧
        position + front.length = span.start :=
      ⟨_, _, (List.take_append_drop (span.start - position) bytes).symm,
        by rw [List.length_take]; omega⟩
    obtain ⟨taken, rest, rfl, long⟩ : ∃ taken rest, behind = taken ++ rest ∧
        span.start + taken.length = span.stop :=
      ⟨_, _, (List.take_append_drop (span.stop - span.start) behind).symm,
        by rw [List.length_take]; simp only [List.length_append] at upper; omega⟩
    have kept : outside (span :: later) position front = front := by
      refine outside_of_free fun other mem => .inr ?_
      rcases List.mem_cons.mp mem with rfl | mem
      · exact Nat.le_of_eq reach
      · have := first other mem
        omega
    have gone : outside (span :: later) span.start taken = [] :=
      outside_of_covered (List.mem_cons_self ..) (Nat.le_refl _) (Nat.le_of_eq long)
    have counted : (outside later span.stop rest).length + (later.map Span.length).sum =
        rest.length := by
      refine ih apart fun other mem => ?_
      have := first other mem
      have := inside other (by simp [mem])
      simp only [List.length_append] at this
      omega
    have same : outside (span :: later) span.stop rest = outside later span.stop rest :=
      outside_behind (Nat.le_refl _)
    simp only [outside_append, kept, gone, same, reach, long, List.nil_append, List.length_append,
      List.map_cons, List.sum_cons, Span.length]
    omega

end VisibilityRules.Shortcode
