import Mathlib
import VisibilityRules.Proofs.Scan

set_option autoImplicit false

/-!
Exactness of the search. Where a tag opens is said of the bytes of a text alone; the occurrences
found are the ones that these openings and the grammar of tags allow.
-/
namespace VisibilityRules.Shortcode

open Text.Utf8 (size encode ofString IsAscii)

theorem isAscii_of_isNameChar {c : Char} (h : isNameChar c) : IsAscii c := by
  have bound (d : Char) (le : c ≤ d) : c.toNat ≤ d.toNat := UInt32.le_iff_toNat_le.mp le
  simp only [isNameChar, Bool.or_eq_true, beq_iff_eq, Char.isAlphanum, Char.isAlpha, Char.isUpper,
    Char.isLower, Char.isDigit, Bool.and_eq_true, decide_eq_true_eq] at h
  unfold IsAscii
  rcases h with ((((⟨_, le⟩ | ⟨_, le⟩) | ⟨_, le⟩)) | rfl) | rfl
  · exact Nat.lt_of_le_of_lt (bound 'Z' le) (by decide)
  · exact Nat.lt_of_le_of_lt (bound 'z' le) (by decide)
  · exact Nat.lt_of_le_of_lt (bound '9' le) (by decide)
  · decide
  · decide

def isNameByte (b : UInt8) : Bool := isNameChar (Char.ofNat b.toNat)

def nameStart (bytes : List UInt8) (i : Nat) : Nat :=
  -- The name stands behind one bracket or behind two.
  if bytes[i + 1]? = some '['.toUInt8 then i + 2 else i + 1

/-- A tag opens at byte `i`: the name stands behind the bracket and ends, and there is a closing
bracket at its end or behind it. -/
structure OpensAt (name bytes : List UInt8) (i : Nat) : Prop where
  bracket : bytes[i]? = some '['.toUInt8
  named : name <+: bytes.drop (nameStart bytes i)
  name_ends : ∀ b, bytes[nameStart bytes i + name.length]? = some b → isNameByte b = false
  closed : ∃ k, nameStart bytes i + name.length ≤ k ∧ bytes[k]? = some ']'.toUInt8

theorem isNameByte_head {text : List Char} {c : Char} {b : UInt8} (head : text.head? = some c)
    (first : (encode text)[0]? = some b) : isNameByte b = isNameChar c := by
  obtain ⟨rest, rfl⟩ := List.head?_eq_some_iff.mp head
  by_cases ascii : IsAscii c
  · have same := (Text.Utf8.getElem?_encode_zero_iff ascii).mpr head
    obtain rfl := Option.some.inj (first.symm.trans same)
    rw [isNameByte, Text.Utf8.toNat_toUInt8 ascii, Char.ofNat_toNat]
  · have mem : b ∈ String.utf8EncodeChar c := by
      rw [Text.Utf8.encode_cons, List.getElem?_append_left
        (by simpa using c.utf8Size_pos)] at first
      exact List.mem_of_getElem? first
    have high := Text.Utf8.high_of_not_isAscii ascii mem
    have byte : ¬ isNameByte b := by
      intro char
      have low : (Char.ofNat b.toNat).toNat < 0x80 := isAscii_of_isNameChar char
      rw [Text.Utf8.toNat_ofNat_toNat] at low
      omega
    have char : ¬ isNameChar c := fun char => ascii (isAscii_of_isNameChar char)
    rw [Bool.eq_false_iff.mpr byte, Bool.eq_false_iff.mpr char]

theorem name_ends_iff {text : List Char} :
    (∀ b, (encode text)[0]? = some b → isNameByte b = false) ↔
      ∀ c, text.head? = some c → isNameChar c = false := by
  cases text with
  | nil => simp
  | cons c rest =>
    have positive : 0 < (encode (c :: rest)).length := by
      simpa using Nat.lt_add_right _ c.utf8Size_pos
    have first := List.getElem?_eq_getElem positive
    have same := isNameByte_head rfl first
    rw [first]
    simp only [Option.some.injEq, forall_eq', List.head?_cons, same]

theorem opens_bytes_iff {tag inner : List Char} (front : List Char) (name : IsName tag) :
    (encode tag <+: (encode (front ++ inner)).drop (size front) ∧
      (∀ b, (encode (front ++ inner))[size front + (encode tag).length]? = some b →
        isNameByte b = false) ∧
      ∃ k, size front + (encode tag).length ≤ k ∧
        (encode (front ++ inner))[k]? = some ']'.toUInt8) ↔
    ∃ more, inner = tag ++ more ∧ (∀ c, more.head? = some c → isNameChar c = false) ∧
      ']' ∈ more := by
  have ascii : ∀ c ∈ tag, IsAscii c := fun c mem => isAscii_of_isNameChar (name.2 c mem)
  have bracket : IsAscii ']' := by decide
  rw [Text.Utf8.drop_encode_append, Text.Utf8.encode_prefix_encode_iff ascii]
  have shift (more : List Char) (k : Nat) :
      (encode (front ++ (tag ++ more)))[size front + size tag + k]? = (encode more)[k]? := by
    rw [← List.append_assoc, ← Text.Utf8.size_append, Text.Utf8.getElem?_encode_append]
  constructor
  · rintro ⟨⟨more, rfl⟩, ends, k, behind, closed⟩
    rw [Text.Utf8.length_encode] at ends behind
    have zero := shift more 0
    rw [Nat.add_zero] at zero
    rw [zero, name_ends_iff] at ends
    obtain ⟨m, rfl⟩ := Nat.exists_eq_add_of_le behind
    rw [shift] at closed
    obtain ⟨inside, after, rfl, _⟩ := Text.Utf8.getElem?_encode_eq_some bracket closed
    exact ⟨_, rfl, ends, by simp⟩
  · rintro ⟨more, rfl, ends, closed⟩
    obtain ⟨inside, after, rfl⟩ := List.append_of_mem closed
    rw [Text.Utf8.length_encode]
    refine ⟨⟨_, rfl⟩, ?_, size front + size tag + size inside, Nat.le_add_right .., ?_⟩
    · have zero := shift (inside ++ ']' :: after) 0
      rw [Nat.add_zero] at zero
      rw [zero]
      exact name_ends_iff.mpr ends
    · rw [shift]
      have here := Text.Utf8.getElem?_encode_append inside (']' :: after) 0
      rw [Nat.add_zero] at here
      rw [here]
      exact (Text.Utf8.getElem?_encode_zero_iff bracket).mpr rfl

theorem nameStart_encode {inner : List Char} {leading : Bool} (before : List Char)
    (single : leading = false → inner.head? ≠ some '[') :
    nameStart (encode (before ++ '[' :: (extra '[' leading ++ inner))) (size before) =
      size (before ++ '[' :: extra '[' leading) := by
  have next : (encode (before ++ '[' :: (extra '[' leading ++ inner)))[size before + 1]? =
      (encode (extra '[' leading ++ inner))[0]? := by
    simpa using Text.Utf8.getElem?_encode_append (before ++ ['[']) (extra '[' leading ++ inner) 0
  have head : (extra '[' leading ++ inner).head? = some '[' ↔ leading = true := by
    cases leading with
    | false => simpa [extra] using single rfl
    | true => simp [extra]
  simp only [nameStart, next, Text.Utf8.getElem?_encode_zero_iff (show IsAscii '[' by decide), head]
  cases leading <;> simp [extra]

theorem opensAt_iff {tag text : List Char} {i : Nat} (name : IsName tag) :
    OpensAt (encode tag) (encode text) i ↔
      ∃ before rest, text = before ++ '[' :: rest ∧ size before = i ∧ Opens tag rest := by
  have split (before inner : List Char) (leading : Bool) :
      before ++ '[' :: (extra '[' leading ++ inner) =
        (before ++ '[' :: extra '[' leading) ++ inner := by simp
  constructor
  · rintro ⟨bracket, named, name_ends, closed⟩
    obtain ⟨before, rest, rfl, rfl⟩ := Text.Utf8.getElem?_encode_eq_some (by decide) bracket
    obtain ⟨leading, inner, rfl, single⟩ : ∃ leading inner, rest = extra '[' leading ++ inner ∧
        (leading = false → inner.head? ≠ some '[') := by
      by_cases doubled : rest.head? = some '['
      · obtain ⟨inner, rfl⟩ := List.head?_eq_some_iff.mp doubled
        exact ⟨true, inner, rfl, by simp⟩
      · exact ⟨false, rest, rfl, fun _ => doubled⟩
    rw [nameStart_encode before single, split] at named name_ends closed
    obtain ⟨more, rfl, opens⟩ := (opens_bytes_iff _ name).mp ⟨named, name_ends, closed⟩
    exact ⟨before, _, rfl, rfl, leading, more, rfl, opens⟩
  · rintro ⟨before, rest, rfl, rfl, leading, more, rfl, opens⟩
    have start : nameStart (encode (before ++ '[' :: (extra '[' leading ++ (tag ++ more))))
        (size before) = size (before ++ '[' :: extra '[' leading) :=
      nameStart_encode before fun _ => name.head_append_ne more
    obtain ⟨named, name_ends, closed⟩ :=
      (opens_bytes_iff (before ++ '[' :: extra '[' leading) name).mpr ⟨more, rfl, opens⟩
    rw [← split, ← start] at named name_ends closed
    have here := Text.Utf8.getElem?_encode_append before
      ('[' :: (extra '[' leading ++ (tag ++ more))) 0
    exact ⟨here.trans ((Text.Utf8.getElem?_encode_zero_iff (by decide)).mpr rfl), named,
      name_ends, closed⟩

/-- An occurrence stands in a text as the grammar has it: it begins where a tag opens, the text has
there what the occurrence unparses to, and its parts end at the first place where they can. -/
structure Occurrence.IsParsed (element text : String) (o : Occurrence) : Prop where
  named : o.tag = element
  opens : OpensAt (ofString element) (ofString text) o.start
  unclosed : ']' ∉ o.attributeText.toList
  no_slash : o.form ≠ .selfClosing → o.attributeText.toList.getLast? ≠ some '/'
  first_closing : ∀ body, o.form = .enclosing body →
    ¬ (closingTag element).toList <:+: body.toList
  stands : ∃ before after : String, text = before ++ o.text ++ after ∧
    size before.toList = o.start ∧
    (o.form = .lone →
      ¬ (closingTag element).toList <:+: ((if o.trailing then "]" else "") ++ after).toList) ∧
    (o.trailing = false → after.toList.head? ≠ some ']')

structure IsScan (element text : String) (found : List Occurrence) : Prop where
  in_order : found.Pairwise fun a b => a.stop ≤ b.start
  nonempty : ∀ o ∈ found, o.start < o.stop
  parsed : ∀ o ∈ found, o.IsParsed element text
  none_missed : ∀ i, OpensAt (ofString element) (ofString text) i →
    ∃ o ∈ found, o.start ≤ i ∧ i < o.stop

theorem isParsed_of_mem {element text : String} {o : Occurrence} (name : IsName element.toList)
    (mem : o ∈ findAll element text) : o.IsParsed element text := by
  rw [name.findAll_eq] at mem
  obtain ⟨before, rest, after, o', whole, read, rfl⟩ := mem_occurrences mem
  have opens : Opens element.toList rest := readOccurrence_isSome_iff.mp (by rw [read]; rfl)
  have stands : text = String.ofList before ++ o'.text ++ String.ofList after :=
    String.toList_inj.mp (by simp [whole, readOccurrence_text read])
  obtain ⟨leading, tail, rfl, _, well, stops⟩ := readOccurrence_sound read
  have missing (lone : tail.form = .lone) :
      ¬ (Occurrence.closingTag element).toList <:+:
        ((if tail.trailing then "]" else "") ++ String.ofList after).toList := by
    have bracket : (if tail.trailing then "]" else "").toList = extra ']' tail.trailing := by
      cases tail.trailing <;> rfl
    rw [String.toList_append, bracket, toList_closingTag, closing_infix_extra_append]
    simpa using stops.no_closing lone
  exact {
    named := by simp [Tail.made, Occurrence.movedTo]
    opens := (opensAt_iff name).mpr ⟨before, rest, whole, (Nat.zero_add _).symm, opens⟩
    unclosed := by simpa [Tail.made, Occurrence.movedTo] using well.unclosed
    no_slash := by simpa [Tail.made, Occurrence.movedTo] using well.no_slash
    first_closing := by simpa [Tail.made, Occurrence.movedTo] using well.first_closing
    stands := ⟨String.ofList before, String.ofList after, stands,
      by simp [Occurrence.movedTo], missing,
      by simpa [Tail.made, Occurrence.movedTo] using stops.no_bracket⟩ }

theorem findAll_isScan (element text : String) (valid : ElementName.problem? element = none) :
    IsScan element text (findAll element text) := by
  have name := isName_iff.mpr valid
  refine ⟨?_, fun o _ => o.start_lt_stop, fun o mem => isParsed_of_mem name mem, ?_⟩
  · rw [name.findAll_eq]
    exact occurrences_pairwise 0 _
  · intro i opening
    obtain ⟨before, rest, whole, rfl, opens⟩ := (opensAt_iff name).mp opening
    rw [name.findAll_eq]
    simpa using exists_occurrence_of_opens 0 whole opens

theorem findAll_isScan_nested :
    ElementName.problem? "tag" = none ∧
      IsScan "tag" "é[[tag/] [tag][tag]b[/tag]]" (findAll "tag" "é[[tag/] [tag][tag]b[/tag]]") :=
  ⟨by decide, findAll_isScan _ _ (by decide)⟩

end VisibilityRules.Shortcode
