import VisibilityRules.Proofs.Bytes
import VisibilityRules.Proofs.Separators
import VisibilityRules.Settings.ElementName

set_option autoImplicit false

/-!
The grammar of a tag. A tag that is read unparses to the text it was read from, and for a name that
elements can have every text of that form is read back: the form is the only one of the text.
-/
namespace VisibilityRules.Shortcode

def IsName (tag : List Char) : Prop := tag ≠ [] ∧ ∀ c ∈ tag, isNameChar c

theorem isName_iff {element : String} :
    IsName element.toList ↔ ElementName.problem? element = none := by
  by_cases empty : element = ""
  · simp [IsName, ElementName.problem?, empty]
  · simp [IsName, ElementName.problem?, empty, List.find?_eq_none]

theorem IsName.free {tag : List Char} (name : IsName tag) {c : Char}
    (other : isNameChar c = false) : c ∉ tag :=
  fun mem => by simp [name.2 c mem] at other

def closing (tag : List Char) : List Char := '[' :: ('/' :: tag ++ [']'])

@[simp] theorem toList_closingTag (tag : String) :
    (Occurrence.closingTag tag).toList = closing tag.toList := by
  simp [Occurrence.closingTag, closing]

theorem IsName.once {tag : List Char} (name : IsName tag) : '[' ∉ '/' :: tag ++ [']'] := by
  simp [name.free (c := '[') (by decide)]

@[simp] theorem utf8Size_bracket : '['.utf8Size = 1 := rfl

def extra (bracket : Char) (there : Bool) : List Char := if there then [bracket] else []

theorem closing_infix_extra_append {tag after : List Char} (trailing : Bool) :
    closing tag <:+: extra ']' trailing ++ after ↔ closing tag <:+: after := by
  cases trailing with
  | false => simp [extra]
  | true => simp [extra, closing, List.infix_cons_iff]

def Form.text (tag : List Char) : Form → List Char
  | .selfClosing => ['/', ']']
  | .lone => [']']
  | .enclosing body => ']' :: (body.toList ++ closing tag)

namespace Tail

def text (tag : List Char) (tail : Tail) : List Char :=
  tail.attributeText ++ (tail.form.text tag ++ extra ']' tail.trailing)

/-- The conditions on a tag's own text. -/
structure WellFormed (tag : List Char) (tail : Tail) : Prop where
  name_ends : ∀ c, tail.attributeText.head? = some c → isNameChar c = false
  unclosed : ']' ∉ tail.attributeText
  no_slash : tail.form ≠ .selfClosing → tail.attributeText.getLast? ≠ some '/'
  first_closing : ∀ body, tail.form = .enclosing body → ¬ closing tag <:+: body.toList

/-- The conditions on the text behind a tag; it must not belong to the tag. -/
structure StopsAt (tag : List Char) (tail : Tail) (after : List Char) : Prop where
  no_closing : tail.form = .lone → ¬ closing tag <:+: after
  no_bracket : tail.trailing = false → after.head? ≠ some ']'

end Tail

theorem readTrailing_eq_iff {text after : List Char} {trailing : Bool} :
    readTrailing text = (trailing, after) ↔
      text = extra ']' trailing ++ after ∧ (trailing = false → after.head? ≠ some ']') := by
  unfold readTrailing
  split
  next rest =>
    cases trailing with
    | false =>
      simp only [extra, Bool.false_eq_true, if_false, List.nil_append, Prod.mk.injEq, reduceCtorEq,
        false_and, true_implies, false_iff, not_and, Decidable.not_not]
      rintro rfl
      rfl
    | true => simp [extra]
  next rest other =>
    cases trailing with
    | false =>
      simp only [extra, Bool.false_eq_true, if_false, List.nil_append, Prod.mk.injEq, true_and,
        true_implies, iff_self_and]
      rintro rfl head
      obtain ⟨rest, rfl⟩ := List.head?_eq_some_iff.mp head
      exact other rest rfl
    | true =>
      simp only [extra, if_true, Prod.mk.injEq, Bool.false_eq_true, false_and, false_iff, not_and]
      rintro rfl
      exact absurd rfl (other after)

theorem readForm_sound {tag text after : List Char} {form : Form}
    (h : readForm tag text = (form, after)) :
    (∃ body : String, form = .enclosing body ∧ text = body.toList ++ (closing tag ++ after) ∧
        ¬ closing tag <:+: body.toList) ∨
      (form = .lone ∧ text = after ∧ ¬ closing tag <:+: after) := by
  unfold readForm at h
  split at h
  next body rest found =>
    obtain ⟨rfl, rfl⟩ := Prod.mk.inj h
    obtain ⟨rfl, free⟩ := Text.breakOn_some found
    exact .inl ⟨String.ofList body, rfl, by simp [closing], by simpa [closing] using free⟩
  next missing =>
    obtain ⟨rfl, rfl⟩ := Prod.mk.inj h
    exact .inr ⟨rfl, rfl, Text.breakOn_eq_none_iff.mp missing⟩

theorem readForm_enclosing {tag after : List Char} {body : String} (name : IsName tag)
    (free : ¬ closing tag <:+: body.toList) :
    readForm tag (body.toList ++ (closing tag ++ after)) = (.enclosing body, after) := by
  have found : Text.breakOn ('[' :: ('/' :: tag ++ [']'])) (body.toList ++ (closing tag ++ after)) =
      some (body.toList, after) := (Text.breakOn_eq_some_iff name.once).mpr ⟨rfl, free⟩
  unfold readForm
  rw [show '[' :: '/' :: tag ++ [']'] = '[' :: ('/' :: tag ++ [']']) from rfl, found]
  simp

theorem readForm_lone {tag text : List Char} (missing : ¬ closing tag <:+: text) :
    readForm tag text = (.lone, text) := by
  have none := Text.breakOn_eq_none_iff.mpr missing
  unfold readForm
  rw [show '[' :: '/' :: tag ++ [']'] = closing tag from rfl, none]

theorem exists_first_closing {tag text : List Char} (closed : closing tag <:+: text) :
    ∃ body trailing after, text = body ++ (closing tag ++ (extra ']' trailing ++ after)) ∧
      ¬ closing tag <:+: body ∧ (trailing = false → after.head? ≠ some ']') := by
  cases found : Text.breakOn (closing tag) text with
  | none => exact absurd closed (Text.breakOn_eq_none_iff.mp found)
  | some places =>
    obtain ⟨body, rest⟩ := places
    obtain ⟨rfl, free⟩ := Text.breakOn_some found
    obtain ⟨split, no_bracket⟩ := readTrailing_eq_iff.mp (rfl : readTrailing rest = (_, _))
    exact ⟨body, _, _, by rw [← split]; rfl, free, no_bracket⟩

theorem readTag_sound {tag text after : List Char} {tail : Tail}
    (h : readTag tag text = some (tail, after)) :
    text = tag ++ (tail.text tag ++ after) ∧ tail.WellFormed tag ∧ tail.StopsAt tag after := by
  unfold readTag at h
  split at h
  next => simp at h
  next rest named =>
    obtain rfl := Text.dropFront_eq_some_iff.mp named
    split at h
    next => simp at h
    next ends =>
      split at h
      next => simp at h
      next inside closed found =>
        obtain ⟨rfl, unclosed⟩ := Text.splitOnce_eq_some_iff.mp found
        have name_ends : ∀ c, inside.head? = some c → isNameChar c = false := by
          intro c head
          obtain ⟨more, rfl⟩ := List.head?_eq_some_iff.mp head
          simpa using ends
        split at h
        -- The slash belongs to the form and not to the attributes.
        next slash =>
          cases traced : readTrailing closed with
          | mk trailing rest =>
            simp only [traced, Option.some.injEq, Prod.mk.injEq] at h
            obtain ⟨rfl, rfl⟩ := h
            obtain ⟨rfl, no_bracket⟩ := readTrailing_eq_iff.mp traced
            obtain ⟨attributes, rfl⟩ := List.getLast?_eq_some_iff.mp slash
            simp only [List.dropLast_concat] at *
            refine ⟨by simp [Tail.text, Form.text], ⟨?_, ?_, by simp, by simp⟩, by simp, no_bracket⟩
            · intro c head
              obtain ⟨more, rfl⟩ := List.head?_eq_some_iff.mp head
              exact name_ends c rfl
            · exact fun mem => unclosed (by simp [mem])
        next no_slash =>
          cases formed : readForm tag closed with
          | mk form rest =>
            cases traced : readTrailing rest with
            | mk trailing last =>
              simp only [formed, traced, Option.some.injEq, Prod.mk.injEq] at h
              obtain ⟨rfl, rfl⟩ := h
              obtain ⟨rfl, no_bracket⟩ := readTrailing_eq_iff.mp traced
              rcases readForm_sound formed with ⟨body, rfl, rfl, free⟩ | ⟨rfl, rfl, missing⟩
              · exact ⟨by simp [Tail.text, Form.text],
                  ⟨name_ends, unclosed, fun _ => no_slash, by simpa using free⟩,
                  by simp, no_bracket⟩
              · exact ⟨by simp [Tail.text, Form.text],
                  ⟨name_ends, unclosed, fun _ => no_slash, by simp⟩,
                  fun _ later => missing ((closing_infix_extra_append _).mpr later), no_bracket⟩

theorem Tail.WellFormed.head_text {tag after : List Char} {tail : Tail}
    (well : tail.WellFormed tag) {c : Char}
    (head : (tail.text tag ++ after).head? = some c) : isNameChar c = false := by
  cases attributes : tail.attributeText with
  | nil =>
    cases form : tail.form <;>
      simp [Tail.text, attributes, form, Form.text] at head <;> subst head <;> decide
  | cons d more =>
    simp only [Tail.text, attributes, List.cons_append, List.head?_cons, Option.some.injEq] at head
    subst head
    exact well.name_ends d (by simp [attributes])

theorem readTag_complete {tag after : List Char} {tail : Tail} (name : IsName tag)
    (well : tail.WellFormed tag) (stops : tail.StopsAt tag after) :
    readTag tag (tag ++ (tail.text tag ++ after)) = some (tail, after) := by
  have named : Text.dropFront tag (tag ++ (tail.text tag ++ after)) =
      some (tail.text tag ++ after) := Text.dropFront_eq_some_iff.mpr rfl
  have ends : ((tail.text tag ++ after).head?.map isNameChar).getD false = false := by
    cases head : (tail.text tag ++ after).head? with
    | none => rfl
    | some c => exact well.head_text head
  have traced : readTrailing (extra ']' tail.trailing ++ after) = (tail.trailing, after) :=
    readTrailing_eq_iff.mpr ⟨rfl, stops.no_bracket⟩
  have split (inside closed : List Char) (unclosed : ']' ∉ inside)
      (cut : tail.text tag ++ after = inside ++ ']' :: closed) :
      Text.splitOnce ']' (tail.text tag ++ after) = some (inside, closed) :=
    Text.splitOnce_eq_some_iff.mpr ⟨cut, unclosed⟩
  rw [readTag, named]
  simp only [ends, Bool.false_eq_true, if_false]
  obtain ⟨attributes, form, trailing⟩ := tail
  cases form with
  | selfClosing =>
    rw [split (attributes ++ ['/']) (extra ']' trailing ++ after)
      (by simpa using well.unclosed) (by simp [Tail.text, Form.text])]
    simp [traced]
  | lone =>
    have lone := readForm_lone fun later =>
      stops.no_closing rfl ((closing_infix_extra_append trailing).mp later)
    rw [split attributes (extra ']' trailing ++ after) well.unclosed
      (by simp [Tail.text, Form.text])]
    simp [well.no_slash, lone, traced]
  | enclosing body =>
    have enclosing : readForm tag (body.toList ++ (closing tag ++ (extra ']' trailing ++ after))) =
        (.enclosing body, extra ']' trailing ++ after) :=
      readForm_enclosing name (well.first_closing body rfl)
    rw [split attributes (body.toList ++ (closing tag ++ (extra ']' trailing ++ after)))
      well.unclosed (by simp [Tail.text, Form.text])]
    simp [well.no_slash, enclosing, traced]

theorem readTag_isSome_iff {tag text : List Char} :
    (readTag tag text).isSome ↔ ∃ more, text = tag ++ more ∧
      (∀ c, more.head? = some c → isNameChar c = false) ∧ ']' ∈ more := by
  unfold readTag
  split
  next missing =>
    simp only [Option.isSome_none, Bool.false_eq_true, false_iff, not_exists, not_and]
    rintro more rfl
    exact absurd ⟨more, rfl⟩ (Text.dropFront_eq_none_iff.mp missing)
  next rest named =>
    obtain rfl := Text.dropFront_eq_some_iff.mp named
    simp only [List.append_cancel_left_eq, exists_eq_left']
    split
    next continues =>
      cases rest with
      | nil => simp at continues
      | cons c rest => simp_all
    next ends =>
      have ends : ∀ c, rest.head? = some c → isNameChar c = false := by
        intro c head
        simpa [head] using ends
      split
      next missing => simp [Text.splitOnce_eq_none_iff.mp missing]
      next inside closed found =>
        obtain ⟨rfl, _⟩ := Text.splitOnce_eq_some_iff.mp found
        split <;> simp_all

namespace Occurrence

def tail (o : Occurrence) : Tail := ⟨o.attributeText.toList, o.form, o.trailing⟩

theorem toList_text (o : Occurrence) :
    o.text.toList =
      '[' :: (extra '[' o.leading ++ (o.tag.toList ++ o.tail.text o.tag.toList)) := by
  cases leading : o.leading <;> cases form : o.form <;> cases trailing : o.trailing <;>
    simp [text, tail, Tail.text, Form.text, extra, leading, form, trailing]

def movedTo (start : Nat) (o : Occurrence) : Occurrence := { o with start }

@[simp] theorem text_movedTo (start : Nat) (o : Occurrence) : (o.movedTo start).text = o.text := rfl

end Occurrence

def Tail.made (tag : List Char) (start : Nat) (leading : Bool) (tail : Tail) : Occurrence :=
  ⟨String.ofList tag, start, leading, String.ofList tail.attributeText, tail.form, tail.trailing⟩

@[simp] theorem Tail.toList_text_made (tag : List Char) (start : Nat) (leading : Bool)
    (tail : Tail) :
    (tail.made tag start leading).text.toList =
      '[' :: (extra '[' leading ++ (tag ++ tail.text tag)) := by
  simp [Occurrence.toList_text, Tail.made, Occurrence.tail]

def readMade (tag : List Char) (start : Nat) (leading : Bool) (text : List Char) :
    Option (Occurrence × List Char) :=
  (readTag tag text).map fun read => (read.1.made tag start leading, read.2)

theorem readOccurrence_doubled {tag inner : List Char} {start : Nat} :
    readOccurrence tag start ('[' :: inner) =
      (readMade tag start true inner).or (readMade tag start false ('[' :: inner)) := rfl

theorem readOccurrence_single {tag rest : List Char} {start : Nat}
    (single : rest.head? ≠ some '[') :
    readOccurrence tag start rest = readMade tag start false rest := by
  cases rest with
  | nil => rfl
  | cons c rest =>
    have other : c ≠ '[' := by simpa using single
    unfold readOccurrence
    split
    next same => exact absurd (List.cons.inj same).1 other
    next => rfl

theorem readOccurrence_movedTo (tag rest : List Char) (start : Nat) :
    readOccurrence tag start rest =
      (readOccurrence tag 0 rest).map fun read => (read.1.movedTo start, read.2) := by
  have moved (leading : Bool) (text : List Char) : readMade tag start leading text =
      (readMade tag 0 leading text).map fun read => (read.1.movedTo start, read.2) := by
    simp [readMade, Function.comp_def, Tail.made, Occurrence.movedTo]
  by_cases doubled : rest.head? = some '['
  · obtain ⟨inner, rfl⟩ := List.head?_eq_some_iff.mp doubled
    rw [readOccurrence_doubled, readOccurrence_doubled, Option.map_or, ← moved, ← moved]
  · rw [readOccurrence_single doubled, readOccurrence_single doubled, ← moved]

theorem readOccurrence_sound {tag rest after : List Char} {start : Nat} {o : Occurrence}
    (h : readOccurrence tag start rest = some (o, after)) :
    ∃ (leading : Bool) (tail : Tail), o = tail.made tag start leading ∧
      rest = extra '[' leading ++ (tag ++ (tail.text tag ++ after)) ∧
      tail.WellFormed tag ∧ tail.StopsAt tag after := by
  have made {leading : Bool} {text : List Char}
      (read : readMade tag start leading text = some (o, after)) :
      ∃ tail : Tail, o = tail.made tag start leading ∧ text = tag ++ (tail.text tag ++ after) ∧
        tail.WellFormed tag ∧ tail.StopsAt tag after := by
    simp only [readMade, Option.map_eq_some_iff, Prod.mk.injEq, Prod.exists] at read
    obtain ⟨tail, after, read, rfl, rfl⟩ := read
    exact ⟨tail, rfl, readTag_sound read⟩
  -- Behind two brackets the tag may still have been read from the second one on.
  by_cases doubled : rest.head? = some '['
  · obtain ⟨inner, rfl⟩ := List.head?_eq_some_iff.mp doubled
    rw [readOccurrence_doubled] at h
    rcases Option.or_eq_some_iff.mp h with read | ⟨_, read⟩
    · obtain ⟨tail, rfl, rfl, fits⟩ := made read
      exact ⟨true, tail, rfl, rfl, fits⟩
    · obtain ⟨tail, rfl, text, fits⟩ := made read
      exact ⟨false, tail, rfl, text, fits⟩
  · rw [readOccurrence_single doubled] at h
    obtain ⟨tail, rfl, rfl, fits⟩ := made h
    exact ⟨false, tail, rfl, rfl, fits⟩

theorem readOccurrence_text {tag rest after : List Char} {start : Nat} {o : Occurrence}
    (h : readOccurrence tag start rest = some (o, after)) :
    '[' :: rest = o.text.toList ++ after := by
  obtain ⟨leading, tail, rfl, rfl, _⟩ := readOccurrence_sound h
  simp

theorem IsName.head_append_ne {tag : List Char} (name : IsName tag) (more : List Char) :
    (tag ++ more).head? ≠ some '[' := by
  cases tag with
  | nil => exact absurd rfl name.1
  | cons c tag =>
    have first := name.2 c (by simp)
    intro head
    simp only [List.cons_append, List.head?_cons, Option.some.injEq] at head
    subst head
    exact absurd first (by decide)

theorem readOccurrence_complete {tag after : List Char} {start : Nat} {leading : Bool} {tail : Tail}
    (name : IsName tag) (well : tail.WellFormed tag) (stops : tail.StopsAt tag after) :
    readOccurrence tag start (extra '[' leading ++ (tag ++ (tail.text tag ++ after))) =
      some (tail.made tag start leading, after) := by
  have read := readTag_complete name well stops
  cases leading with
  | false =>
    rw [extra, if_neg Bool.false_ne_true, List.nil_append,
      readOccurrence_single (name.head_append_ne _), readMade, read, Option.map_some]
  | true =>
    rw [extra, if_pos rfl, List.singleton_append, readOccurrence_doubled, readMade, read,
      Option.map_some, Option.some_or]

/-- The text behind a bracket opens a tag: after an extra bracket or none the name stands there and
ends, and a closing bracket stands somewhere behind it. -/
def Opens (tag rest : List Char) : Prop :=
  ∃ leading more, rest = extra '[' leading ++ (tag ++ more) ∧
    (∀ c, more.head? = some c → isNameChar c = false) ∧ ']' ∈ more

theorem readOccurrence_isSome_iff {tag rest : List Char} {start : Nat} :
    (readOccurrence tag start rest).isSome ↔ Opens tag rest := by
  have made (leading : Bool) (text : List Char) : (readMade tag start leading text).isSome ↔
      ∃ more, text = tag ++ more ∧ (∀ c, more.head? = some c → isNameChar c = false) ∧
        ']' ∈ more := by
    rw [readMade, Option.isSome_map, readTag_isSome_iff]
  have opens : Opens tag rest ↔
      (∃ inner, rest = '[' :: inner ∧ (readMade tag start true inner).isSome) ∨
        (readMade tag start false rest).isSome := by
    simp only [made, Opens, Bool.exists_bool, extra, Bool.false_eq_true, if_false, if_true,
      List.nil_append, List.singleton_append]
    constructor
    · rintro (single | ⟨more, rfl, rest⟩)
      · exact .inr single
      · exact .inl ⟨_, rfl, more, rfl, rest⟩
    · rintro (⟨inner, rfl, more, rfl, rest⟩ | single)
      · exact .inr ⟨more, rfl, rest⟩
      · exact .inl single
  rw [opens]
  by_cases doubled : rest.head? = some '['
  · obtain ⟨inner, rfl⟩ := List.head?_eq_some_iff.mp doubled
    rw [readOccurrence_doubled, Option.isSome_or, Bool.or_eq_true]
    simp
  · rw [readOccurrence_single doubled]
    constructor
    · exact .inr
    · rintro (⟨inner, rfl, _⟩ | single)
      · exact absurd rfl doubled
      · exact single

theorem takeWhile_name {tag more : List Char} (name : IsName tag)
    (ends : ∀ c, more.head? = some c → isNameChar c = false) :
    (tag ++ more).takeWhile isNameChar = tag := by
  have stops : more.takeWhile isNameChar = [] := by
    cases more with
    | nil => rfl
    | cons c more => rw [List.takeWhile_cons, ends c rfl]; rfl
  rw [List.takeWhile_append_of_pos name.2, stops, List.append_nil]

/-- A tag is found under its own name only. -/
theorem not_opens_other {tag tag' more : List Char} (name : IsName tag) (name' : IsName tag')
    (ends : ∀ c, more.head? = some c → isNameChar c = false) (other : tag' ≠ tag) :
    ¬ Opens tag' (tag ++ more) := by
  rintro ⟨leading, more', same, ends', _⟩
  cases leading with
  | true =>
    have head := congrArg List.head? same
    exact name.head_append_ne more (by simpa [extra] using head)
  | false =>
    have names := congrArg (List.takeWhile isNameChar) same
    rw [takeWhile_name name ends] at names
    exact other (names.trans (@takeWhile_name tag' more' name' ends')).symm

theorem readOccurrence_opens {tag rest after : List Char} {start : Nat} {o : Occurrence}
    (h : readOccurrence tag start rest = some (o, after)) (later : List Char) :
    ∃ inner, o.text.toList ++ later = '[' :: inner ∧ Opens tag inner := by
  obtain ⟨leading, tail, rfl, rfl, well, _⟩ := readOccurrence_sound h
  have closed : ']' ∈ tail.text tag ++ later := by
    cases form : tail.form <;> simp [Tail.text, Form.text, form]
  exact ⟨extra '[' leading ++ (tag ++ (tail.text tag ++ later)), by simp, leading, _, rfl,
    fun _ => well.head_text, closed⟩

theorem Tail.StopsAt.of_append {tag after later : List Char} {tail : Tail}
    (stops : tail.StopsAt tag (after ++ later)) : tail.StopsAt tag after := by
  refine ⟨fun lone inside => stops.no_closing lone (List.infix_append_of_infix_left inside), ?_⟩
  intro single head
  obtain ⟨more, rfl⟩ := List.head?_eq_some_iff.mp head
  exact stops.no_bracket single rfl

theorem Tail.StopsAt.nil (tag : List Char) (tail : Tail) : tail.StopsAt tag [] := by
  refine ⟨fun _ => ?_, fun _ => by simp⟩
  simp [closing]

theorem readOccurrence_unique_of_shorter {tag rest rest' after after' : List Char}
    {o o' : Occurrence} (name : IsName tag) (h : readOccurrence tag 0 rest = some (o, after))
    (h' : readOccurrence tag 0 rest' = some (o', after'))
    (shorter : o.text.toList <+: o'.text.toList) (front : o'.text.toList <+: '[' :: rest) :
    o = o' := by
  obtain ⟨leading, tail, rfl, rfl, well, stops⟩ := readOccurrence_sound h
  obtain ⟨leading', tail', rfl, rfl, well', _⟩ := readOccurrence_sound h'
  obtain ⟨more, longer⟩ := shorter
  obtain ⟨later, whole⟩ := front
  -- On the longer text alone both tags are read.
  have split : after = more ++ later := by
    simpa [← longer] using whole.symm
  have first : readOccurrence tag 0 (extra '[' leading ++ (tag ++ (tail.text tag ++ more))) =
      some (tail.made tag 0 leading, more) :=
    readOccurrence_complete name well (split ▸ stops).of_append
  have second : readOccurrence tag 0 (extra '[' leading' ++ (tag ++ (tail'.text tag ++ []))) =
      some (tail'.made tag 0 leading', []) :=
    readOccurrence_complete name well' (Tail.StopsAt.nil tag tail')
  have same : extra '[' leading ++ (tag ++ (tail.text tag ++ more)) =
      extra '[' leading' ++ (tag ++ (tail'.text tag ++ [])) := by
    simpa using longer
  rw [same, second] at first
  exact (Prod.mk.inj (Option.some.inj first)).1.symm

/-- Two tags of which each stands at the front of both texts are the same tag. -/
theorem readOccurrence_unique {tag rest rest' after after' : List Char} {o o' : Occurrence}
    (name : IsName tag) (h : readOccurrence tag 0 rest = some (o, after))
    (h' : readOccurrence tag 0 rest' = some (o', after'))
    (front : o'.text.toList <+: '[' :: rest) (front' : o.text.toList <+: '[' :: rest') :
    o = o' := by
  have own : o.text.toList <+: '[' :: rest := ⟨after, (readOccurrence_text h).symm⟩
  rcases List.prefix_or_prefix_of_prefix own front with shorter | shorter
  · exact readOccurrence_unique_of_shorter name h h' shorter front
  · exact (readOccurrence_unique_of_shorter name h' h shorter front').symm

end VisibilityRules.Shortcode
