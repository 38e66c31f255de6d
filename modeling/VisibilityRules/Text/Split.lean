set_option autoImplicit false

/-!
Cutting text at separators. Joining the pieces with the separator gives the text back.
-/
namespace VisibilityRules.Text

def extendHead (c : Char) : List (List Char) → List (List Char)
  | [] => [[c]]
  | piece :: pieces => (c :: piece) :: pieces

def split (separator : Char) : List Char → List (List Char)
  -- The pieces between the separators; there is always at least one.
  | [] => [[]]
  | c :: rest =>
    if c = separator then [] :: split separator rest
    else extendHead c (split separator rest)

def splitOnce (separator : Char) : List Char → Option (List Char × List Char)
  | [] => none
  | c :: rest =>
    if c = separator then some ([], rest)
    else (splitOnce separator rest).map fun (before, after) => (c :: before, after)

def dropFront : List Char → List Char → Option (List Char)
  | [], text => some text
  | _ :: _, [] => none
  | p :: pattern, c :: text => if p = c then dropFront pattern text else none

def breakOn (pattern : List Char) : List Char → Option (List Char × List Char)
  | [] => (dropFront pattern []).map fun rest => ([], rest)
  | c :: rest =>
    match dropFront pattern (c :: rest) with
    | some after => some ([], after)
    | none => (breakOn pattern rest).map fun (before, after) => (c :: before, after)

def contains (text pattern : List Char) : Bool := (breakOn pattern text).isSome

theorem length_dropWhile_le {α : Type} (p : α → Bool) (l : List α) :
    (l.dropWhile p).length ≤ l.length := (List.dropWhile_sublist p).length_le

theorem dropFront_length {pattern text rest : List Char} (h : dropFront pattern text = some rest) :
    text.length = pattern.length + rest.length := by
  induction pattern generalizing text with
  | nil => simp [dropFront] at h; simp [h]
  | cons p pattern ih =>
    cases text with
    | nil => simp [dropFront] at h
    | cons c text =>
      simp only [dropFront] at h
      split at h
      next => have := ih h; simp; omega
      next => simp at h

theorem breakOn_length {pattern text before after : List Char}
    (h : breakOn pattern text = some (before, after)) :
    text.length = before.length + pattern.length + after.length := by
  induction text generalizing before with
  | nil =>
    simp only [breakOn, Option.map_eq_some_iff, Prod.mk.injEq] at h
    obtain ⟨rest, found, rfl, rfl⟩ := h
    have := dropFront_length found
    simpa using this
  | cons c text ih =>
    simp only [breakOn] at h
    split at h
    next rest found =>
      simp only [Option.some.injEq, Prod.mk.injEq] at h
      obtain ⟨rfl, rfl⟩ := h
      have := dropFront_length found
      simpa using this
    next =>
      simp only [Option.map_eq_some_iff, Prod.mk.injEq, Prod.exists] at h
      obtain ⟨before', after', found, rfl, rfl⟩ := h
      have := ih found
      simp only [List.length_cons]
      omega

end VisibilityRules.Text
