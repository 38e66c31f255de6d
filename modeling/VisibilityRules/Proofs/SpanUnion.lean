import VisibilityRules.Proofs.Removal

set_option autoImplicit false

/-!
Cutting spans out of a text takes away what they cover together, whatever their order and however
often they come, and every piece that is kept is a slice of the text.
-/
namespace VisibilityRules.Shortcode

open Text.Utf8 (size encode ofString)

/-! ### Slices -/

/-- Splits a text behind a number of bytes. There is nothing where the text is shorter or where
these bytes end inside a character. -/
def splitBytes? : Nat → List Char → Option (List Char × List Char)
  | 0, cs => some ([], cs)
  | _ + 1, [] => none
  | count + 1, c :: rest =>
    if c.utf8Size ≤ count + 1 then
      (splitBytes? (count + 1 - c.utf8Size) rest).map fun (front, back) => (c :: front, back)
    else none

def slice? (text : List Char) (piece : Span) : Option (List Char) := do
  if piece.stop < piece.start then none
  else
    let (_, behind) ← splitBytes? piece.start text
    let (inside, _) ← splitBytes? piece.length behind
    some inside

/-- Cuts sorted spans out of a text of which all before `position` is gone. Every piece that is kept
has to be a slice of the text. -/
def cutSlices? (text : List Char) : Nat → List Span → Option (List Char)
  | position, [] => slice? text ⟨min position (size text), size text⟩
  | position, span :: later =>
    if span.stop ≤ position then cutSlices? text position later
    else if span.start ≤ position then cutSlices? text span.stop later
    else do
      let piece ← slice? text ⟨position, span.start⟩
      let rest ← cutSlices? text span.stop later
      some (piece ++ rest)

theorem splitBytes_eq_some_iff {count : Nat} {text front back : List Char} :
    splitBytes? count text = some (front, back) ↔ text = front ++ back ∧ size front = count := by
  induction count, text using splitBytes?.induct generalizing front with
  | case1 text =>
    simp only [splitBytes?, Option.some.injEq, Prod.mk.injEq, Text.Utf8.size_eq_zero_iff]
    constructor
    · rintro ⟨rfl, rfl⟩
      exact ⟨rfl, rfl⟩
    · rintro ⟨rfl, rfl⟩
      exact ⟨rfl, rfl⟩
  | case2 count =>
    simp only [splitBytes?, reduceCtorEq, false_iff, not_and]
    intro empty long
    simp [(List.append_eq_nil_iff.mp empty.symm).1] at long
  | case3 count c rest whole ih =>
    simp only [splitBytes?, whole, if_true, Option.map_eq_some_iff, Prod.mk.injEq, Prod.exists]
    constructor
    · rintro ⟨front', back', found, rfl, rfl⟩
      obtain ⟨rfl, long⟩ := ih.mp found
      exact ⟨rfl, by rw [Text.Utf8.size_cons]; omega⟩
    · rintro ⟨split, long⟩
      cases front with
      | nil => simp at long
      | cons d front =>
        obtain ⟨rfl, rfl⟩ := List.cons.inj split
        rw [Text.Utf8.size_cons] at long
        exact ⟨front, back, ih.mpr ⟨rfl, by omega⟩, rfl, rfl⟩
  | case4 count c rest inside =>
    simp only [splitBytes?, inside, if_false, reduceCtorEq, false_iff, not_and]
    intro split long
    cases front with
    | nil => simp at long
    | cons d front =>
      obtain ⟨rfl, rfl⟩ := List.cons.inj split
      rw [Text.Utf8.size_cons] at long
      omega

@[simp] theorem splitBytes_size (front back : List Char) :
    splitBytes? (size front) (front ++ back) = some (front, back) :=
  splitBytes_eq_some_iff.mpr ⟨rfl, rfl⟩

theorem slice_size (front inside back : List Char) :
    slice? (front ++ (inside ++ back)) ⟨size front, size front + size inside⟩ = some inside := by
  simp [slice?, Span.length]

instance (here : Nat) (text : List Char) (position : Nat) :
    Decidable (IsBoundary here text position) :=
  decidable_of_iff (here ≤ position ∧ (splitBytes? (position - here) text).isSome) <| by
    simp only [IsBoundary, Option.isSome_iff_exists, Prod.exists, splitBytes_eq_some_iff]
    constructor
    · rintro ⟨le, front, back, split, long⟩
      exact ⟨front, back, split, by omega⟩
    · rintro ⟨front, back, split, long⟩
      exact ⟨by omega, front, back, split, by omega⟩

instance (here : Nat) (text : List Char) (span : Span) : Decidable (span.FitsIn here text) :=
  decidable_of_iff (span.start ≤ span.stop ∧ IsBoundary here text span.start ∧
      (IsBoundary here text span.stop ∨ here + size text ≤ span.stop))
    ⟨fun ⟨ordered, start, stop⟩ => ⟨ordered, start, stop⟩,
      fun fits => ⟨fits.ordered, fits.start, fits.stop⟩⟩

/-! ### The pieces that are kept -/

/-- Cutting never asks for a slice that is not there. The text is walked along with `front` behind,
and what is gone reaches up to a boundary or past the end. -/
theorem cutSlices_eq {spans : List Span} {front back : List Char} {position : Nat}
    (le : size front ≤ position)
    (gone : IsBoundary 0 (front ++ back) position ∨ size (front ++ back) ≤ position)
    (sorted : spans.Pairwise fun a b => a.start ≤ b.start)
    (fits : ∀ span ∈ spans, span.FitsIn 0 (front ++ back)) :
    cutSlices? (front ++ back) position spans =
      some (cutSorted (size front) position spans back) := by
  induction spans generalizing front back position with
  | nil =>
    rw [cutSlices?, cutSorted]
    rcases gone with boundary | past
    · obtain ⟨passed, rest, rfl, rfl⟩ := boundary.behind (by omega)
      have last := slice_size (front ++ passed) rest []
      simpa [Nat.add_assoc, dropBytes_size] using last
    · have empty := slice_size (front ++ back) [] []
      rw [Text.Utf8.size_append] at past
      rw [dropBytes_of_size_le (by omega), Nat.min_eq_right (by simpa using past)]
      simpa using empty
  | cons span later ih =>
    obtain ⟨first, sorted⟩ := List.pairwise_cons.mp sorted
    obtain ⟨fit, fits⟩ := List.forall_mem_cons.mp fits
    have stop : IsBoundary 0 (front ++ back) span.stop ∨ size (front ++ back) ≤ span.stop := by
      simpa using fit.stop
    rw [cutSlices?, cutSorted]
    split
    next => exact ih le gone sorted fits
    next =>
      split
      next touching => exact ih (by omega) stop sorted fits
      next apart =>
        have boundary : IsBoundary 0 (front ++ back) position := by
          obtain ⟨before, after, split, start⟩ := fit.start
          refine gone.resolve_right fun past => apart ?_
          rw [split, Text.Utf8.size_append] at past
          omega
        obtain ⟨passed, behind, rfl, here⟩ := boundary.behind (by omega)
        obtain rfl : position = size (front ++ passed) := by simp [← here]
        have left : dropBytes (size (front ++ passed) - size front) (passed ++ behind) = behind := by
          simp [dropBytes_size]
        rw [← List.append_assoc] at fit stop fits ⊢
        obtain ⟨kept, rest, rfl, start⟩ := fit.start.behind (by simp at apart ⊢; omega)
        have reach : span.start = size (front ++ passed) + size kept := by simpa using start.symm
        have last := ih (by have := fit.ordered; omega) stop sorted fits
        have piece := slice_size (front ++ passed) kept rest
        rw [reach, piece, last, left]
        simp [takeBytes_size]

theorem removeSpans_congr {spans spans' : List Span} {text : String}
    (fits : ∀ span ∈ spans, span.FitsIn 0 text.toList)
    (same : ∀ span, span ∈ spans' ↔ span ∈ spans) :
    removeSpans text spans' = removeSpans text spans := by
  have fits' : ∀ span ∈ spans', span.FitsIn 0 text.toList :=
    fun span mem => fits span ((same span).mp mem)
  apply Text.Utf8.ofString_inj.mp
  rw [ofString_removeSpans fits, ofString_removeSpans fits']
  apply outside_congr
  intro position _ _
  simp only [any_covers_iff, same]

/-- The bytes that are left are those that lie in no span. Hence neither the order of the spans nor
their number matters, and the pieces that are put together are slices of the text. -/
theorem removeSpans_deletes_union (text : String) (spans : List Span)
    (fits : ∀ span ∈ spans, span.FitsIn 0 text.toList) :
    ofString (removeSpans text spans) = outside spans 0 (ofString text) ∧
    (∀ spans' : List Span, (∀ span, span ∈ spans' ↔ span ∈ spans) →
      removeSpans text spans' = removeSpans text spans) ∧
    (cutSlices? text.toList 0 (spans.mergeSort fun a b => a.start ≤ b.start)).map String.ofList =
      some (removeSpans text spans) := by
  refine ⟨ofString_removeSpans fits, fun _ => removeSpans_congr fits, ?_⟩
  have slices := cutSlices_eq (Nat.le_refl _) (.inl ⟨[], text.toList, rfl, rfl⟩)
    (pairwise_sorted spans) fun span mem => fits span (List.mem_mergeSort.mp mem)
  exact congrArg (Option.map String.ofList) slices

theorem removeSpans_deletes_union_overlapping :
    let text := "0é23456"
    let spans : List Span := [⟨6, 100⟩, ⟨1, 4⟩, ⟨0, 1⟩, ⟨3, 3⟩, ⟨1, 3⟩, ⟨1, 4⟩, ⟨8, 8⟩]
    (∀ span ∈ spans, span.FitsIn 0 text.toList) ∧
      ofString (removeSpans text spans) = [0x33, 0x34] ∧
      removeSpans text [⟨0, 1⟩, ⟨1, 3⟩, ⟨1, 4⟩, ⟨3, 3⟩, ⟨6, 100⟩, ⟨8, 8⟩] =
        removeSpans text spans := by
  intro text spans
  have fits : ∀ span ∈ spans, span.FitsIn 0 text.toList := by decide
  obtain ⟨bytes, order, _⟩ := removeSpans_deletes_union text spans fits
  refine ⟨fits, ?_, order _ ?_⟩
  · rw [bytes]
    decide
  · intro span
    simp only [spans, List.mem_cons, List.not_mem_nil, or_false]
    grind

end VisibilityRules.Shortcode
