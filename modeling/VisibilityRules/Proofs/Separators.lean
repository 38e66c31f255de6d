import VisibilityRules.Text.Split

set_option autoImplicit false

/-!
What the cutting functions find, said of the text alone: a pattern stands in a text, and stands
nowhere earlier.
-/
namespace VisibilityRules.Text

/-- Characters are many, so those of a text are asked one by one along the text. -/
instance decidableForallMem (text : List Char) (p : Char → Prop) [DecidablePred p] :
    Decidable (∀ c ∈ text, p c) := List.decidableBAll p text

theorem dropFront_eq_some_iff {pattern text rest : List Char} :
    dropFront pattern text = some rest ↔ text = pattern ++ rest := by
  induction pattern generalizing text with
  | nil => simp [dropFront, eq_comm]
  | cons p pattern ih =>
    cases text with
    | nil => simp [dropFront]
    | cons c text =>
      by_cases same : p = c
      · simp [dropFront, same, ih]
      · simp [dropFront, same, Ne.symm same]

theorem dropFront_eq_none_iff {pattern text : List Char} :
    dropFront pattern text = none ↔ ¬ pattern <+: text := by
  rw [Option.eq_none_iff_forall_ne_some]
  constructor
  · rintro missing ⟨rest, rfl⟩
    exact missing rest (dropFront_eq_some_iff.mpr rfl)
  · intro missing rest found
    exact missing ⟨rest, (dropFront_eq_some_iff.mp found).symm⟩

theorem splitOnce_eq_some_iff {separator : Char} {text before after : List Char} :
    splitOnce separator text = some (before, after) ↔
      text = before ++ separator :: after ∧ separator ∉ before := by
  induction text generalizing before with
  | nil => simp [splitOnce]
  | cons c text ih =>
    by_cases here : c = separator
    · subst here
      cases before with
      | nil => simp [splitOnce]
      | cons b before =>
        simp only [splitOnce, if_true, Option.some.injEq, Prod.mk.injEq, List.nil_eq, reduceCtorEq,
          false_and, List.cons_append, List.cons.injEq, List.mem_cons, not_or, false_iff]
        exact fun split => split.2.1 split.1.1
    · cases before with
      | nil => simp [splitOnce, here]
      | cons b before =>
        simp only [splitOnce, here, if_false, Option.map_eq_some_iff, Prod.mk.injEq, Prod.exists,
          List.cons.injEq, List.cons_append, List.mem_cons, not_or]
        constructor
        · rintro ⟨before', after', found, ⟨rfl, rfl⟩, rfl⟩
          obtain ⟨rfl, free⟩ := ih.mp found
          exact ⟨⟨rfl, rfl⟩, Ne.symm here, free⟩
        · rintro ⟨⟨rfl, rfl⟩, _, free⟩
          exact ⟨before, after, ih.mpr ⟨rfl, free⟩, ⟨rfl, rfl⟩, rfl⟩

theorem splitOnce_eq_none_iff {separator : Char} {text : List Char} :
    splitOnce separator text = none ↔ separator ∉ text := by
  induction text with
  | nil => simp [splitOnce]
  | cons c text ih =>
    by_cases here : c = separator
    · simp [splitOnce, here]
    · simp [splitOnce, here, ih, Ne.symm here]

theorem split_eq_splitOn (separator : Char) (text : List Char) :
    split separator text = text.splitOn separator := by
  induction text with
  | nil => rw [split, List.splitOn_nil]
  | cons c text ih =>
    rw [split, ih, List.splitOn_cons_eq_if_modifyHead]
    by_cases here : c = separator
    · rw [if_pos here, if_pos (beq_iff_eq.mpr here)]
    · rw [if_neg here, if_neg (mt beq_iff_eq.mp here)]
      cases pieces : text.splitOn separator with
      | nil => exact absurd pieces (List.splitOn_ne_nil separator text)
      | cons piece pieces => rfl

theorem split_intercalate {separator : Char} {pieces : List (List Char)}
    (free : ∀ piece ∈ pieces, separator ∉ piece) (nonempty : pieces ≠ []) :
    split separator ([separator].intercalate pieces) = pieces := by
  rw [split_eq_splitOn, List.splitOn_intercalate separator free nonempty]

theorem intercalate_cons (separator : Char) (first : List Char) (later : List (List Char)) :
    [separator].intercalate (first :: later) = first ++ later.flatMap (separator :: ·) := by
  induction later generalizing first with
  | nil => simp
  | cons next later ih => simp [List.intercalate_cons_of_ne_nil, ih]

theorem not_mem_of_mem_split {separator : Char} {text piece : List Char}
    (mem : piece ∈ split separator text) : separator ∉ piece := by
  induction text generalizing piece with
  | nil =>
    rw [List.mem_singleton.mp mem]
    exact List.not_mem_nil
  | cons c text ih =>
    rw [split] at mem
    split at mem
    next =>
      rcases List.mem_cons.mp mem with rfl | later
      · exact List.not_mem_nil
      · exact ih later
    next other =>
      cases pieces : split separator text with
      | nil =>
        rw [pieces, extendHead, List.mem_singleton] at mem
        rw [mem, List.mem_singleton]
        exact Ne.symm other
      | cons first others =>
        rw [pieces, extendHead] at mem
        rw [pieces] at ih
        rcases List.mem_cons.mp mem with rfl | later
        · exact List.not_mem_cons_of_ne_of_not_mem (Ne.symm other) (ih (List.mem_cons_self ..))
        · exact ih (List.mem_cons_of_mem _ later)

/-- A text has just the pieces that it can be put together from again, where none of them holds
the separator. -/
theorem split_eq_iff {separator : Char} {text : String} {pieces : List String}
    (nonempty : pieces ≠ []) :
    (split separator text.toList).map String.ofList = pieces ↔
      text = (String.singleton separator).intercalate pieces ∧
        ∀ piece ∈ pieces, separator ∉ piece.toList := by
  constructor
  · intro whole
    have texts : split separator text.toList = pieces.map String.toList := by
      rw [← whole, List.map_map]
      simp [Function.comp_def]
    refine ⟨?_, fun piece mem => ?_⟩
    · rw [← String.toList_inj, String.toList_intercalate, String.toList_singleton, ← texts,
        split_eq_splitOn, List.intercalate_splitOn]
    · exact not_mem_of_mem_split (texts ▸ List.mem_map_of_mem mem)
  · rintro ⟨rfl, free⟩
    rw [String.toList_intercalate, String.toList_singleton,
      split_intercalate (by simpa using free) (by simpa using nonempty), List.map_map]
    simp [Function.comp_def]

theorem breakOn_eq_none_iff {pattern text : List Char} :
    breakOn pattern text = none ↔ ¬ pattern <:+: text := by
  induction text with
  | nil =>
    rw [breakOn, Option.map_eq_none_iff, dropFront_eq_none_iff, List.prefix_nil, List.infix_nil]
  | cons c text ih =>
    rw [breakOn, List.infix_cons_iff]
    cases found : dropFront pattern (c :: text) with
    | some rest =>
      have here : pattern <+: c :: text := ⟨rest, (dropFront_eq_some_iff.mp found).symm⟩
      simp [here]
    | none =>
      have missing := dropFront_eq_none_iff.mp found
      simp [ih, missing]

theorem breakOn_some {first : Char} {others text before after : List Char}
    (h : breakOn (first :: others) text = some (before, after)) :
    text = before ++ (first :: others ++ after) ∧ ¬ first :: others <:+: before := by
  induction text generalizing before with
  | nil => simp [breakOn, dropFront] at h
  | cons c text ih =>
    rw [breakOn] at h
    cases found : dropFront (first :: others) (c :: text) with
    | some rest =>
      simp only [found, Option.some.injEq, Prod.mk.injEq] at h
      obtain ⟨rfl, rfl⟩ := h
      exact ⟨by simpa using dropFront_eq_some_iff.mp found, by simp⟩
    | none =>
      simp only [found, Option.map_eq_some_iff, Prod.mk.injEq, Prod.exists] at h
      obtain ⟨before', after', later, rfl, rfl⟩ := h
      obtain ⟨rfl, free⟩ := ih later
      refine ⟨rfl, ?_⟩
      rw [List.infix_cons_iff, not_or]
      have missing := dropFront_eq_none_iff.mp found
      exact ⟨fun front => missing (front.trans ⟨first :: others ++ after', rfl⟩), free⟩

section

-- A pattern whose first character does not return in it cannot overlap itself.
variable {first : Char} {others : List Char} (once : first ∉ others)
include once

theorem no_overlap {gap after after' : List Char}
    (same : first :: others ++ after = gap ++ (first :: others ++ after')) :
    gap = [] ∨ first :: others <+: gap := by
  rcases List.append_eq_append_iff.mp same with ⟨more, rfl, _⟩ | ⟨more, within, here⟩
  · exact .inr ⟨more, rfl⟩
  · cases gap with
    | nil => exact .inl rfl
    | cons g gap =>
      cases more with
      | nil => exact .inr ⟨[], by simpa using within⟩
      | cons m more =>
        simp only [List.cons_append, List.cons.injEq] at within here
        exact absurd (by simp [within.2, here.1]) once

theorem first_place_unique {before before' after after' : List Char}
    (same : before ++ (first :: others ++ after) = before' ++ (first :: others ++ after'))
    (free : ¬ first :: others <:+: before) (free' : ¬ first :: others <:+: before') :
    before = before' ∧ after = after' := by
  rcases List.append_eq_append_iff.mp same with ⟨gap, rfl, here⟩ | ⟨gap, rfl, here⟩
  · rcases no_overlap once here with rfl | early
    · simpa using here
    · exact absurd (List.infix_append_of_infix_right early.isInfix) free'
  · rcases no_overlap once here with rfl | early
    · simpa [eq_comm] using here
    · exact absurd (List.infix_append_of_infix_right early.isInfix) free

theorem breakOn_eq_some_iff {text before after : List Char} :
    breakOn (first :: others) text = some (before, after) ↔
      text = before ++ (first :: others ++ after) ∧ ¬ first :: others <:+: before := by
  refine ⟨breakOn_some, ?_⟩
  rintro ⟨rfl, free⟩
  cases found : breakOn (first :: others) (before ++ (first :: others ++ after)) with
  | none => exact absurd (List.infix_append' _ _ _) (breakOn_eq_none_iff.mp found)
  | some places =>
    obtain ⟨before', after'⟩ := places
    have split := breakOn_some found
    obtain ⟨rfl, rfl⟩ := first_place_unique once split.1 free split.2
    rfl

end

end VisibilityRules.Text
