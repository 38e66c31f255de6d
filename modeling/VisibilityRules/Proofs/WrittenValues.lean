import VisibilityRules.Proofs.Separators
import VisibilityRules.Shortcode.AttributeText

set_option autoImplicit false

/-!
Values of attributes as they are written, between quotes or bare, and the gaps around them. A value
is read as a whole wherever a gap or the end of the list stands behind it.
-/
namespace VisibilityRules.Shortcode

inductive Quoting where
  | double
  | single
  | bare
  deriving DecidableEq, Repr

structure WrittenValue where
  quoting : Quoting
  chars : List Char
  deriving DecidableEq, Repr

def WrittenValue.text : WrittenValue → List Char
  | ⟨.double, chars⟩ => '"' :: (chars ++ ['"'])
  | ⟨.single, chars⟩ => '\'' :: (chars ++ ['\''])
  | ⟨.bare, chars⟩ => chars

/-- A value does not hold the quote around it; a bare one holds no quote and no blank at all, and
there is something of it. -/
structure WrittenValue.WellFormed (value : WrittenValue) : Prop where
  visible : ∀ c ∈ value.chars, isInvisible c = false
  double : value.quoting = .double → '"' ∉ value.chars
  single : value.quoting = .single → '\'' ∉ value.chars
  bare : value.quoting = .bare → value.chars ≠ [] ∧ ∀ c ∈ value.chars, isBareChar c = true

instance (value : WrittenValue) : Decidable value.WellFormed :=
  decidable_of_iff ((∀ c ∈ value.chars, isInvisible c = false) ∧
      (value.quoting = .double → '"' ∉ value.chars) ∧
      (value.quoting = .single → '\'' ∉ value.chars) ∧
      (value.quoting = .bare → value.chars ≠ [] ∧ ∀ c ∈ value.chars, isBareChar c = true))
    ⟨fun ⟨visible, double, single, bare⟩ => ⟨visible, double, single, bare⟩,
      fun well => ⟨well.visible, well.double, well.single, well.bare⟩⟩

/-- What may stand between two items: blanks, and spaces of no width. -/
def isGapChar (c : Char) : Bool := Text.isBlank c || isInvisible c

/-! ### Characters -/

-- The space of no width stands behind several hundred ranges of letters.
set_option maxRecDepth 1024 in
theorem isKeyChar_separator {c : Char}
    (separates : c ∈ ['=', '"', '\'', ' ', ']', '\u00A0', '\u200B']) :
    Text.isKeyChar c = false := by
  simp only [List.mem_cons, List.not_mem_nil, or_false] at separates
  rcases separates with rfl | rfl | rfl | rfl | rfl | rfl | rfl
  all_goals decide

theorem mem_of_inRanges {ranges : List (Nat × Nat)} {n : Nat} (inside : Text.inRanges ranges n) :
    n ∈ ranges.flatMap fun (low, high) => List.range' low (high + 1 - low) := by
  induction ranges with
  | nil => simp [Text.inRanges] at inside
  | cons range ranges ih =>
    simp only [Text.inRanges, Bool.and_eq_true, Bool.or_eq_true, decide_eq_true_eq] at inside
    rw [List.flatMap_cons, List.mem_append, List.mem_range'_1]
    cases inside.2 with
    | inl high => exact .inl (by omega)
    | inr later => exact .inr (ih later)

theorem isBlank_of_isKeyChar {c : Char} (key : Text.isKeyChar c) : Text.isBlank c = false := by
  rw [Bool.eq_false_iff]
  intro blank
  have outside : ∀ n ∈ Text.blankRanges.flatMap fun (low, high) => List.range' low (high + 1 - low),
      Text.inRanges Text.wordRanges n = false ∧ n ≠ '-'.toNat := by decide +kernel
  obtain ⟨no_word, no_hyphen⟩ := outside _ (mem_of_inRanges blank)
  simp only [Text.isKeyChar, Text.isWord, no_word, Bool.false_or, beq_iff_eq] at key
  exact no_hyphen (by rw [key])

theorem isKeyChar_of_isBlank {c : Char} (blank : Text.isBlank c = true) :
    Text.isKeyChar c = false := by
  rw [Bool.eq_false_iff]
  intro key
  exact Bool.false_ne_true ((isBlank_of_isKeyChar key).symm.trans blank)

theorem ne_of_isKeyChar {c d : Char} (key : Text.isKeyChar c)
    (separates : d ∈ ['=', '"', '\'', ' ', ']', '\u00A0', '\u200B']) : c ≠ d := by
  rintro rfl
  exact Bool.false_ne_true ((isKeyChar_separator separates).symm.trans key)

theorem isInvisible_of_isKeyChar {c : Char} (key : Text.isKeyChar c) : isInvisible c = false := by
  simp [isInvisible, ne_of_isKeyChar key]

/-! ### Invisible spaces -/

theorem plainSpaces_append_of_visible {front : List Char} (back : List Char)
    (visible : ∀ c ∈ front, isInvisible c = false) :
    plainSpaces (front ++ back) = front ++ plainSpaces back := by
  induction front with
  | nil => rfl
  | cons c front ih =>
    obtain ⟨first, others⟩ := List.forall_mem_cons.mp visible
    rw [List.cons_append, plainSpaces, if_neg (by simp [first]), ih others, List.cons_append]

/-- A run of invisible spaces that ends in front of `back` is not longer there. -/
theorem plainSpaces_append_of_head (front : List Char) {back : List Char}
    (head : ∀ c, back.head? = some c → isInvisible c = false) :
    plainSpaces (front ++ back) = plainSpaces front ++ plainSpaces back := by
  induction front with
  | nil => rfl
  | cons c front ih =>
    have next : ((front ++ back).head?.map isInvisible).getD false =
        (front.head?.map isInvisible).getD false := by
      cases front with
      | nil => cases found : back.head? <;> simp [found, head]
      | cons d front => rfl
    simp only [List.cons_append, plainSpaces, next, ih]
    split
    next => split <;> rfl
    next => rfl

theorem isBlank_of_mem_plainSpaces {gap : List Char} (blank : ∀ c ∈ gap, isGapChar c = true) :
    ∀ c ∈ plainSpaces gap, Text.isBlank c = true := by
  have space : Text.isBlank ' ' = true := by decide
  induction gap with
  | nil => simp [plainSpaces]
  | cons c gap ih =>
    obtain ⟨first, others⟩ := List.forall_mem_cons.mp blank
    rw [plainSpaces]
    split
    next =>
      split
      next => exact ih others
      next => exact List.forall_mem_cons.mpr ⟨space, ih others⟩
    next visible =>
      have : Text.isBlank c = true := by simpa [isGapChar, visible] using first
      exact List.forall_mem_cons.mpr ⟨this, ih others⟩

theorem plainSpaces_ne_nil {gap : List Char} (nonempty : gap ≠ []) : plainSpaces gap ≠ [] := by
  induction gap with
  | nil => exact absurd rfl nonempty
  | cons c gap ih =>
    rw [plainSpaces]
    split
    next =>
      split
      next more => exact ih (by rintro rfl; simp at more)
      next => exact List.cons_ne_nil _ _
    next => exact List.cons_ne_nil _ _

/-! ### One value -/

theorem isBlank_of_isBareChar {c : Char} (bare : isBareChar c = true) : Text.isBlank c = false := by
  simp only [isBareChar, Bool.not_eq_true', Bool.or_eq_false_iff] at bare
  exact bare.1.1

theorem ne_quote_of_isBareChar {c : Char} (bare : isBareChar c = true) : c ≠ '"' ∧ c ≠ '\'' := by
  constructor <;> rintro rfl <;> exact absurd bare (by decide)

theorem isBareChar_of_isBlank {c : Char} (blank : Text.isBlank c = true) :
    isBareChar c = false := by
  simp [isBareChar, blank]

/-- What stands behind an item: a blank, or nothing. -/
def EndsItem (after : List Char) : Prop := ∀ c, after.head? = some c → Text.isBlank c = true

theorem EndsItem.afterItem_eq {after : List Char} (ends : EndsItem after) :
    afterItem after = some (after.drop 1) := by
  cases after with
  | nil => rfl
  | cons c after => simp [afterItem, ends c rfl]

theorem takeWhile_run {p : Char → Bool} {run rest : List Char} (goes : ∀ c ∈ run, p c = true)
    (stops : ∀ c, rest.head? = some c → p c = false) : (run ++ rest).takeWhile p = run := by
  rw [List.takeWhile_append_of_pos goes]
  cases rest with
  | nil => simp
  | cons c rest => simp [stops c rfl]

theorem dropWhile_run {p : Char → Bool} {run rest : List Char} (goes : ∀ c ∈ run, p c = true)
    (stops : ∀ c, rest.head? = some c → p c = false) : (run ++ rest).dropWhile p = rest := by
  rw [List.dropWhile_append_of_pos goes]
  cases rest with
  | nil => simp
  | cons c rest => simp [stops c rfl]

theorem skipBlanks_append {gap : List Char} (blank : ∀ c ∈ gap, Text.isBlank c = true)
    (text : List Char) : Text.skipBlanks (gap ++ text) = Text.skipBlanks text :=
  List.dropWhile_append_of_pos blank

theorem skipBlanks_cons {c : Char} (visible : Text.isBlank c = false) (text : List Char) :
    Text.skipBlanks (c :: text) = c :: text := by
  rw [Text.skipBlanks, List.dropWhile_cons, visible]
  rfl

theorem quotedValue_append {quote : Char} {chars after : List Char} (free : quote ∉ chars)
    (ends : EndsItem after) :
    quotedValue quote (chars ++ quote :: after) = some (chars, after.drop 1) := by
  have split : Text.splitOnce quote (chars ++ quote :: after) = some (chars, after) :=
    Text.splitOnce_eq_some_iff.mpr ⟨rfl, free⟩
  simp [quotedValue, split, ends.afterItem_eq]

theorem itemValue_bare {c : Char} (bare : isBareChar c = true) (text : List Char) :
    itemValue (c :: text) = bareValue (c :: text) := by
  obtain ⟨no_double, no_single⟩ := ne_quote_of_isBareChar bare
  simp [itemValue, no_double, no_single]

theorem afterUnnamed_bare {c : Char} (bare : isBareChar c = true) (text : List Char) :
    afterUnnamed (c :: text) = ((c :: text).dropWhile fun c => !Text.isBlank c).drop 1 := by
  obtain ⟨no_double, no_single⟩ := ne_quote_of_isBareChar bare
  simp [afterUnnamed, no_double, no_single]

theorem no_equals_of_bare {chars after : List Char} (bare : ∀ c ∈ chars, isBareChar c = true)
    (free : '=' ∉ chars) (ends : EndsItem after)
    (next : (Text.skipBlanks after).head? ≠ some '=') :
    (Text.skipBlanks ((chars ++ after).dropWhile Text.isKeyChar)).head? ≠ some '=' := by
  induction chars with
  | nil =>
    have stays : after.dropWhile Text.isKeyChar = after := by
      rw [← List.nil_append after]
      exact dropWhile_run (by simp) fun c head => isKeyChar_of_isBlank (ends c head)
    rwa [List.nil_append, stays]
  | cons c chars ih =>
    obtain ⟨first, others⟩ := List.forall_mem_cons.mp bare
    rw [List.mem_cons, not_or] at free
    by_cases key : Text.isKeyChar c = true
    next => simpa [key] using ih others free.2
    next => simpa [key, skipBlanks_cons (isBlank_of_isBareChar first)] using Ne.symm free.1

namespace WrittenValue

variable {value : WrittenValue} (well : value.WellFormed)
include well

theorem WellFormed.exists_head :
    ∃ c rest, value.text = c :: rest ∧ Text.isBlank c = false ∧ isInvisible c = false := by
  obtain ⟨visible, _, _, bare⟩ := well
  obtain ⟨quoting, chars⟩ := value
  cases quoting with
  | double => exact ⟨'"', _, rfl, by decide, by decide⟩
  | single => exact ⟨'\'', _, rfl, by decide, by decide⟩
  | bare =>
    obtain ⟨nonempty, bare⟩ := bare rfl
    obtain ⟨c, rest, rfl⟩ := List.exists_cons_of_ne_nil nonempty
    exact ⟨c, rest, rfl, isBlank_of_isBareChar (bare c (by simp)), visible c (by simp)⟩

theorem WellFormed.visible_text : ∀ c ∈ value.text, isInvisible c = false := by
  have quotes : isInvisible '"' = false ∧ isInvisible '\'' = false := by decide
  have visible := well.visible
  obtain ⟨quoting, chars⟩ := value
  cases quoting <;> simp_all [text, or_imp]

theorem WellFormed.itemValue_text {after : List Char} (ends : EndsItem after) :
    itemValue (value.text ++ after) = some (value.chars, after.drop 1) := by
  obtain ⟨_, double, single, bare⟩ := well
  obtain ⟨quoting, chars⟩ := value
  cases quoting with
  | double => simp [text, itemValue, quotedValue_append (double rfl) ends]
  | single => simp [text, itemValue, quotedValue_append (single rfl) ends]
  | bare =>
    obtain ⟨nonempty, bare⟩ := bare rfl
    have stops := fun c head => isBareChar_of_isBlank (ends c head)
    have taken := takeWhile_run bare stops
    have left := dropWhile_run bare stops
    obtain ⟨c, rest, rfl⟩ := List.exists_cons_of_ne_nil nonempty
    rw [text, List.cons_append, itemValue_bare (bare c (by simp)), ← List.cons_append, bareValue,
      taken, left, ends.afterItem_eq]
    rfl

/-- As an item of its own, the value is passed over as a whole. -/
theorem WellFormed.afterUnnamed_text {after : List Char} (ends : EndsItem after) :
    afterUnnamed (value.text ++ after) = after.drop 1 := by
  obtain ⟨_, double, single, bare⟩ := well
  obtain ⟨quoting, chars⟩ := value
  cases quoting with
  | double => simp [text, afterUnnamed, quotedValue_append (double rfl) ends]
  | single => simp [text, afterUnnamed, quotedValue_append (single rfl) ends]
  | bare =>
    obtain ⟨nonempty, bare⟩ := bare rfl
    have left : (chars ++ after).dropWhile (fun c => !Text.isBlank c) = after :=
      dropWhile_run (fun c mem => by simp [isBlank_of_isBareChar (bare c mem)])
        fun c head => by simp [ends c head]
    obtain ⟨c, rest, rfl⟩ := List.exists_cons_of_ne_nil nonempty
    rw [text, List.cons_append, afterUnnamed_bare (bare c (by simp)), ← List.cons_append, left]

/-- Behind the characters of a key that it may begin with, no equality sign follows. -/
theorem WellFormed.no_equals (free : value.quoting = .bare → '=' ∉ value.chars) {after : List Char}
    (ends : EndsItem after) (next : (Text.skipBlanks after).head? ≠ some '=') :
    (Text.skipBlanks ((value.text ++ after).dropWhile Text.isKeyChar)).head? ≠ some '=' := by
  have quotes : Text.isKeyChar '"' = false ∧ Text.isBlank '"' = false ∧
      Text.isKeyChar '\'' = false ∧ Text.isBlank '\'' = false := by decide
  obtain ⟨_, _, _, bare⟩ := well
  obtain ⟨quoting, chars⟩ := value
  cases quoting with
  | double => simp [text, quotes, skipBlanks_cons]
  | single => simp [text, quotes, skipBlanks_cons]
  | bare => exact no_equals_of_bare (bare rfl).2 (free rfl) ends next

end WrittenValue

end VisibilityRules.Shortcode
