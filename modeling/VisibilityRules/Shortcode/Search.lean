import VisibilityRules.Shortcode.Occurrence

set_option autoImplicit false

/-!
Finding the tags of one element in a text, from left to right and without overlaps. A tag begins
with one bracket, or with two if that can be read, and its name ends where no name character
follows. Its attributes run to the first closing bracket, its body to the first closing tag.
-/
namespace VisibilityRules.Shortcode

def isNameChar (c : Char) : Bool := c.isAlphanum || c == '_' || c == '-'

structure Tail where
  attributeText : List Char
  form : Form
  trailing : Bool

def readTrailing : List Char → Bool × List Char
  | ']' :: rest => (true, rest)
  | rest => (false, rest)

def readForm (tag rest : List Char) : Form × List Char :=
  match Text.breakOn ('[' :: '/' :: tag ++ [']']) rest with
  | some (body, after) => (.enclosing (String.ofList body), after)
  | none => (.lone, rest)

def readTag (tag text : List Char) : Option (Tail × List Char) :=
  match Text.dropFront tag text with
  | none => none
  | some rest =>
    if (rest.head?.map isNameChar).getD false then none
    else
      match Text.splitOnce ']' rest with
      | none => none
      | some (inside, after) =>
        if inside.getLast? = some '/' then
          let (trailing, after) := readTrailing after
          some (⟨inside.dropLast, .selfClosing, trailing⟩, after)
        else
          let (form, after) := readForm tag after
          let (trailing, after) := readTrailing after
          some (⟨inside, form, trailing⟩, after)

/-- Reads an occurrence whose first bracket has just been read: with a second bracket if one
stands there, and without it where that fails. -/
def readOccurrence (tag : List Char) (start : Nat) (rest : List Char) :
    Option (Occurrence × List Char) :=
  let made (leading : Bool) : Tail × List Char → Occurrence × List Char := fun (tail, after) =>
    (⟨String.ofList tag, start, leading, String.ofList tail.attributeText, tail.form,
      tail.trailing⟩, after)
  let plain := (readTag tag rest).map (made false)
  match rest with
  | '[' :: inner => ((readTag tag inner).map (made true)).or plain
  | _ => plain

theorem readTrailing_length (cs : List Char) : (readTrailing cs).2.length ≤ cs.length := by
  unfold readTrailing
  split <;> simp

theorem readForm_length (tag cs : List Char) : (readForm tag cs).2.length ≤ cs.length := by
  unfold readForm
  split
  next found => have := Text.breakOn_length found; simp only; omega
  next => simp

theorem readTag_length {tag text rest : List Char} {tail : Tail}
    (h : readTag tag text = some (tail, rest)) : rest.length < text.length := by
  unfold readTag at h
  split at h
  next => simp at h
  next after named =>
    have first := Text.dropFront_length named
    split at h
    next => simp at h
    next =>
      split at h
      next => simp at h
      next inside closed found =>
        have second := splitOnce_length found
        have third := readForm_length tag closed
        split at h
        next =>
          simp only [Option.some.injEq, Prod.mk.injEq] at h
          have := readTrailing_length closed
          obtain ⟨_, rfl⟩ := h
          omega
        next =>
          simp only [Option.some.injEq, Prod.mk.injEq] at h
          have := readTrailing_length (readForm tag closed).2
          obtain ⟨_, rfl⟩ := h
          omega

theorem readOccurrence_length {tag rest after : List Char} {start : Nat} {o : Occurrence}
    (h : readOccurrence tag start rest = some (o, after)) : after.length < rest.length := by
  unfold readOccurrence at h
  have plain : ∀ {text : List Char} {leading : Bool},
      (readTag tag text).map (fun (tail, after) => ((⟨String.ofList tag, start, leading,
        String.ofList tail.attributeText, tail.form, tail.trailing⟩ : Occurrence), after)) =
        some (o, after) → after.length < text.length := by
    intro text leading made
    simp only [Option.map_eq_some_iff, Prod.mk.injEq, Prod.exists] at made
    obtain ⟨tail, after', found, _, rfl⟩ := made
    exact readTag_length found
  simp only at h
  split at h
  next inner =>
    rcases Option.or_eq_some_iff.mp h with doubled | ⟨_, single⟩
    next => have := plain doubled; simp only [List.length_cons]; omega
    next => exact plain single
  next => exact plain h

def occurrences (tag : List Char) (position : Nat) : List Char → List Occurrence
  | [] => []
  | c :: rest =>
    if c = '[' then
      match found : readOccurrence tag position rest with
      | some (o, after) => o :: occurrences tag o.stop after
      | none => occurrences tag (position + 1) rest
    else occurrences tag (position + c.utf8Size) rest
termination_by text => text.length
decreasing_by
  next => have := readOccurrence_length found; simp only [List.length_cons]; omega
  next => simp
  next => simp

def findAll (tag text : String) : List Occurrence :=
  -- Every occurrence of an element in a text. No text holds an element without a name.
  if tag = "" then [] else occurrences tag.toList 0 text.toList

def firstName (position : Nat) : List Char → Option (Nat × List Char)
  | [] => none
  | c :: rest =>
    if c = '[' ∧ (rest.head?.map isNameChar).getD false then
      some (position + 1, rest.takeWhile isNameChar)
    else firstName (position + c.utf8Size) rest

def firstTag (text : String) : Option (Nat × String) :=
  (firstName 0 text.toList).map fun (position, name) => (position, String.ofList name)

end VisibilityRules.Shortcode
