import VisibilityRules.Proofs.WrittenValues

set_option autoImplicit false

/-!
Attribute lists in all the forms in which they are written. Whatever the gaps and the quotes, the
items are read one by one as they stand, and of two items with one key the later counts.
-/
namespace VisibilityRules.Shortcode

/-! ### What can be written -/

inductive WrittenItem where
  -- Blanks may stand on both sides of the equality sign.
  | named (key before after : List Char) (value : WrittenValue)
  | positional (value : WrittenValue)
  deriving DecidableEq, Repr

namespace WrittenItem

def text : WrittenItem → List Char
  | .named key before after value => key ++ (before ++ '=' :: (after ++ value.text))
  | .positional value => value.text

def WellFormed : WrittenItem → Prop
  | .named key before after value =>
    (key ≠ [] ∧ ∀ c ∈ key, Text.isKeyChar c = true) ∧
      (∀ c ∈ before ++ after, isGapChar c = true) ∧ value.WellFormed
  | .positional value => value.WellFormed ∧ (value.quoting = .bare → '=' ∉ value.chars)

instance (item : WrittenItem) : Decidable item.WellFormed :=
  match item with
  | .named .. => inferInstanceAs (Decidable (_ ∧ _ ∧ _))
  | .positional _ => inferInstanceAs (Decidable (_ ∧ _))

/-- What an item says of the value under a key, which is written in any case. -/
def valueUnder? (key : String) : WrittenItem → Option String
  | .named name _ _ value =>
    if String.ofList (name.map Text.lowerAscii) = key then
      some (String.ofList (unescape value.chars))
    else none
  | .positional _ => none

end WrittenItem

structure WrittenList where
  -- Each item has the gap in front of it at its side.
  entries : List (List Char × WrittenItem)
  -- What stands behind the last item.
  trail : List Char
  deriving DecidableEq, Repr

def entriesText (entries : List (List Char × WrittenItem)) : List Char :=
  entries.flatMap fun (gap, item) => gap ++ item.text

namespace WrittenList

def text (list : WrittenList) : String :=
  String.ofList (entriesText list.entries ++ list.trail)

structure WellFormed (list : WrittenList) : Prop where
  items : ∀ entry ∈ list.entries, entry.2.WellFormed
  gaps : ∀ entry ∈ list.entries, ∀ c ∈ entry.1, isGapChar c = true
  trail : ∀ c ∈ list.trail, isGapChar c = true
  -- Only the first item may stand without a gap in front of it.
  apart : ∀ entry ∈ list.entries.tail, entry.1 ≠ []

instance (list : WrittenList) : Decidable list.WellFormed :=
  decidable_of_iff ((∀ entry ∈ list.entries, entry.2.WellFormed) ∧
      (∀ entry ∈ list.entries, ∀ c ∈ entry.1, isGapChar c = true) ∧
      (∀ c ∈ list.trail, isGapChar c = true) ∧ ∀ entry ∈ list.entries.tail, entry.1 ≠ [])
    ⟨fun ⟨items, gaps, trail, apart⟩ => ⟨items, gaps, trail, apart⟩,
      fun well => ⟨well.items, well.gaps, well.trail, well.apart⟩⟩

end WrittenList

/-! ### One item -/

theorem namedItem_eq_none {text : List Char}
    (no_equals : (Text.skipBlanks (text.dropWhile Text.isKeyChar)).head? ≠ some '=') :
    namedItem text = none := by
  unfold namedItem
  split
  next => rfl
  next =>
    split
    next rest found => simp [found] at no_equals
    next => rfl

theorem items_blanks {gap : List Char} (blank : ∀ c ∈ gap, Text.isBlank c = true)
    (text : List Char) : items (gap ++ text) = items text := by
  induction gap with
  | nil => rfl
  | cons c gap ih =>
    obtain ⟨first, others⟩ := List.forall_mem_cons.mp blank
    rw [List.cons_append, items, if_pos first, ih others]

theorem items_drop_one {after : List Char} (ends : EndsItem after) :
    items (after.drop 1) = items after := by
  cases after with
  | nil => rfl
  | cons c after => rw [items, if_pos (ends c rfl), List.drop_one, List.tail_cons]

namespace WrittenItem

/-- What the reader makes of an item. -/
def read : WrittenItem → Item
  | .named key _ _ value => .named key value.chars
  | .positional _ => .unnamed

/-- The item once invisible spaces have become plain ones. -/
def plain : WrittenItem → WrittenItem
  | .named key before after value => .named key (plainSpaces before) (plainSpaces after) value
  | .positional value => .positional value

theorem read_plain (item : WrittenItem) : item.plain.read = item.read := by
  cases item <;> rfl

/-- No invisible space but real blanks stand around the equality sign. -/
def HasRealBlanks : WrittenItem → Prop
  | .named _ before after _ => ∀ c ∈ before ++ after, Text.isBlank c = true
  | .positional _ => True

variable {item : WrittenItem} (well : item.WellFormed)
include well

theorem exists_head : ∃ c rest, item.text = c :: rest ∧ Text.isBlank c = false ∧
    isInvisible c = false ∧ c ≠ '=' := by
  cases item with
  | named key before after value =>
    obtain ⟨⟨nonempty, key_chars⟩, _, _⟩ := well
    obtain ⟨c, rest, rfl⟩ := List.exists_cons_of_ne_nil nonempty
    have first := key_chars c (by simp)
    exact ⟨c, _, rfl, isBlank_of_isKeyChar first, isInvisible_of_isKeyChar first,
      ne_of_isKeyChar first (by simp)⟩
  | positional value =>
    obtain ⟨c, rest, text, blank, visible⟩ := well.1.exists_head
    refine ⟨c, rest, text, blank, visible, ?_⟩
    rintro rfl
    obtain ⟨quoting, chars⟩ := value
    cases quoting with
    | double => simp [WrittenValue.text] at text
    | single => simp [WrittenValue.text] at text
    | bare =>
      obtain rfl : chars = '=' :: rest := text
      exact well.2 rfl List.mem_cons_self

theorem plainSpaces_text (back : List Char) :
    plainSpaces (item.text ++ back) = item.plain.text ++ plainSpaces back := by
  cases item with
  | named key before after value =>
    obtain ⟨⟨_, key_chars⟩, _, value_well⟩ := well
    have key : ∀ c ∈ key, isInvisible c = false :=
      fun c mem => isInvisible_of_isKeyChar (key_chars c mem)
    have equals : isInvisible '=' = false := by decide
    have behind (gap text : List Char) : plainSpaces (gap ++ '=' :: text) =
        plainSpaces gap ++ '=' :: plainSpaces text := by
      rw [plainSpaces_append_of_head gap (by simp [equals]), plainSpaces, if_neg (by simp [equals])]
    have head : ∀ c, (value.text ++ back).head? = some c → isInvisible c = false := by
      obtain ⟨d, rest, text, _, visible⟩ := value_well.exists_head
      simp [text, visible]
    simp only [text, plain, List.append_assoc, List.cons_append]
    rw [plainSpaces_append_of_visible _ key, behind, plainSpaces_append_of_head after head,
      plainSpaces_append_of_visible _ value_well.visible_text]
  | positional value => exact plainSpaces_append_of_visible back well.1.visible_text

theorem nextItem_text (plain : item.HasRealBlanks) {after : List Char} (ends : EndsItem after)
    (next : (Text.skipBlanks after).head? ≠ some '=') :
    nextItem (item.text ++ after) = (item.read, after.drop 1) := by
  cases item with
  | named key before between value =>
    obtain ⟨⟨nonempty, key_chars⟩, _, value_well⟩ := well
    obtain ⟨before_blank, between_blank⟩ := List.forall_mem_append.mp plain
    have equals : Text.isBlank '=' = false := by decide
    have stops : ∀ c, (before ++ '=' :: (between ++ (value.text ++ after))).head? = some c →
        Text.isKeyChar c = false := by
      cases before with
      | nil => simpa using isKeyChar_separator (by simp)
      | cons b before => simpa using isKeyChar_of_isBlank (before_blank b (by simp))
    have value_text : Text.skipBlanks (value.text ++ after) = value.text ++ after := by
      obtain ⟨d, rest, text, visible, _⟩ := value_well.exists_head
      rw [text, List.cons_append, skipBlanks_cons visible]
    simp only [nextItem, namedItem, text, List.append_assoc, List.cons_append,
      takeWhile_run key_chars stops, dropWhile_run key_chars stops, skipBlanks_append before_blank,
      skipBlanks_cons equals, skipBlanks_append between_blank, value_text,
      value_well.itemValue_text ends]
    simp [nonempty, read]
  | positional value =>
    have unnamed : namedItem (value.text ++ after) = none :=
      namedItem_eq_none (well.1.no_equals well.2 ends next)
    rw [nextItem, text, unnamed, well.1.afterUnnamed_text ends]
    rfl

theorem items_text (plain : item.HasRealBlanks) {after : List Char} (ends : EndsItem after)
    (next : (Text.skipBlanks after).head? ≠ some '=') :
    items (item.text ++ after) = item.read :: items after := by
  have first := nextItem_text well plain ends next
  obtain ⟨c, rest, text, visible, _⟩ := exists_head well
  rw [text, List.cons_append] at first ⊢
  rw [items, if_neg (by simp [visible]), first, items_drop_one ends]

theorem wellFormed_plain : item.plain.WellFormed ∧ item.plain.HasRealBlanks := by
  cases item with
  | named key before after value =>
    obtain ⟨key_well, gaps, value_well⟩ := well
    obtain ⟨before_gap, after_gap⟩ := List.forall_mem_append.mp gaps
    have blank : ∀ c ∈ plainSpaces before ++ plainSpaces after, Text.isBlank c = true :=
      List.forall_mem_append.mpr
        ⟨isBlank_of_mem_plainSpaces before_gap, isBlank_of_mem_plainSpaces after_gap⟩
    exact ⟨⟨key_well, fun c mem => by simp [isGapChar, blank c mem], value_well⟩, blank⟩
  | positional value => exact ⟨well, trivial⟩

end WrittenItem

/-! ### The list -/

section

variable {entries : List (List Char × WrittenItem)} {trail : List Char}

def plainEntry (entry : List Char × WrittenItem) : List Char × WrittenItem :=
  (plainSpaces entry.1, entry.2.plain)

theorem plainSpaces_entriesText (well : ∀ entry ∈ entries, entry.2.WellFormed) :
    plainSpaces (entriesText entries ++ trail) =
      entriesText (entries.map plainEntry) ++ plainSpaces trail := by
  induction entries with
  | nil => rfl
  | cons entry entries ih =>
    obtain ⟨first, others⟩ := List.forall_mem_cons.mp well
    have head : ∀ c, (entry.2.text ++ (entriesText entries ++ trail)).head? = some c →
        isInvisible c = false := by
      obtain ⟨c, rest, text, _, visible, _⟩ := WrittenItem.exists_head first
      simp [text, visible]
    have later := ih others
    simp only [entriesText, List.flatMap_cons, List.append_assoc, List.map_cons, plainEntry]
      at head later ⊢
    rw [plainSpaces_append_of_head entry.1 head, WrittenItem.plainSpaces_text first, later]

/-- The gaps hold real blanks, between the items and around them as well as inside. -/
structure HaveRealBlanks (entries : List (List Char × WrittenItem)) (trail : List Char) : Prop where
  items : ∀ entry ∈ entries, entry.2.WellFormed ∧ entry.2.HasRealBlanks
  gaps : ∀ entry ∈ entries, ∀ c ∈ entry.1, Text.isBlank c = true
  trail : ∀ c ∈ trail, Text.isBlank c = true

theorem HaveRealBlanks.tail {entry : List Char × WrittenItem}
    (plain : HaveRealBlanks (entry :: entries) trail) : HaveRealBlanks entries trail where
  items := fun other mem => plain.items other (by simp [mem])
  gaps := fun other mem => plain.gaps other (by simp [mem])
  trail := plain.trail

theorem begins_entriesText (plain : HaveRealBlanks entries trail)
    (apart : ∀ entry ∈ entries, entry.1 ≠ []) :
    EndsItem (entriesText entries ++ trail) ∧
      (Text.skipBlanks (entriesText entries ++ trail)).head? ≠ some '=' := by
  cases entries with
  | nil =>
    have nothing := skipBlanks_append plain.trail []
    rw [List.append_nil] at nothing
    refine ⟨fun c head => plain.trail c (List.mem_of_head? head), ?_⟩
    rw [entriesText, List.flatMap_nil, List.nil_append, nothing]
    exact nofun
  | cons entry entries =>
    obtain ⟨gap, item⟩ := entry
    obtain ⟨well, _⟩ := plain.items (gap, item) (by simp)
    have blank := plain.gaps (gap, item) (by simp)
    obtain ⟨b, gap, rfl⟩ := List.exists_cons_of_ne_nil (apart (gap, item) (by simp))
    obtain ⟨c, rest, text, visible, _, no_equals⟩ := WrittenItem.exists_head well
    simp only [entriesText, List.flatMap_cons, List.append_assoc, text] at blank ⊢
    rw [skipBlanks_append blank, List.cons_append (a := c), skipBlanks_cons visible]
    exact ⟨by simpa [EndsItem] using blank b, by simpa using no_equals⟩

/-- Every item is read as a whole, and the gap behind it is passed over. -/
theorem items_entriesText (plain : HaveRealBlanks entries trail)
    (apart : ∀ entry ∈ entries.tail, entry.1 ≠ []) :
    items (entriesText entries ++ trail) = entries.map (·.2.read) := by
  induction entries with
  | nil =>
    have nothing := items_blanks plain.trail []
    rw [List.append_nil] at nothing
    simp [entriesText, nothing, items]
  | cons entry entries ih =>
    obtain ⟨well, item⟩ := plain.items entry (by simp)
    have blank := plain.gaps entry (by simp)
    obtain ⟨ends, next⟩ := begins_entriesText plain.tail apart
    have later := ih plain.tail fun other mem => apart other (List.mem_of_mem_tail mem)
    simp only [entriesText, List.flatMap_cons, List.append_assoc] at ends next later ⊢
    rw [items_blanks blank, WrittenItem.items_text well item ends next, later]
    rfl

end

theorem WrittenList.WellFormed.haveRealBlanks {list : WrittenList} (well : list.WellFormed) :
    HaveRealBlanks (list.entries.map plainEntry) (plainSpaces list.trail) where
  items := by
    simp only [List.forall_mem_map]
    exact fun entry mem => WrittenItem.wellFormed_plain (well.items entry mem)
  gaps := by
    simp only [List.forall_mem_map]
    exact fun entry mem => isBlank_of_mem_plainSpaces (well.gaps entry mem)
  trail := isBlank_of_mem_plainSpaces well.trail

theorem items_written {list : WrittenList} (well : list.WellFormed) :
    items (plainSpaces list.text.toList) = list.entries.map (·.2.read) := by
  have apart : ∀ entry ∈ (list.entries.map plainEntry).tail, entry.1 ≠ [] := by
    rw [← List.map_tail]
    simp only [List.forall_mem_map]
    exact fun entry mem => plainSpaces_ne_nil (well.apart entry mem)
  rw [WrittenList.text, String.toList_ofList, plainSpaces_entriesText well.items,
    items_entriesText well.haveRealBlanks apart, List.map_map]
  exact List.map_congr_left fun entry _ => entry.2.read_plain

theorem getElem?_foldl_setItem {items : List WrittenItem} (attributes : Attributes) (key : String) :
    ((items.map WrittenItem.read).foldl setItem attributes)[key]? =
      (items.reverse.findSome? (·.valueUnder? key)).or attributes[key]? := by
  induction items generalizing attributes with
  | nil => simp
  | cons item items ih =>
    have step : (setItem attributes item.read)[key]? =
        (item.valueUnder? key).or attributes[key]? := by
      cases item with
      | named name before after value =>
        simp only [WrittenItem.read, setItem, WrittenItem.valueUnder?,
          Std.ExtTreeMap.getElem?_insert, Std.LawfulEqCmp.compare_eq_iff_eq]
        split <;> rfl
      | positional value => rfl
    rw [List.map_cons, List.foldl_cons, ih, step, List.reverse_cons, List.findSome?_append,
      Option.or_assoc]
    simp

/-- Every list of well-formed items is read as it is written: under a key, in lower case, stands
what the last item with this key says, and nothing else is there. -/
theorem get_readAttributes_written (list : WrittenList) (well : list.WellFormed) (key : String) :
    (readAttributes list.text).get key =
      (list.entries.map (·.2)).reverse.findSome? (·.valueUnder? key) := by
  have read : readAttributes list.text =
      ((list.entries.map (·.2)).map WrittenItem.read).foldl setItem ∅ := by
    rw [readAttributes, items_written well, List.map_map]
    rfl
  rw [Attributes.get, read, getElem?_foldl_setItem]
  simp

theorem get_readAttributes_written_mixed :
    let list : WrittenList :=
      ⟨[([' '], .positional ⟨.bare, "first".toList⟩),
        (['\u00A0', '\u200B'],
          .named "Note-1".toList ['\t'] [' ', '\u200B'] ⟨.double, "a\\x41".toList⟩),
        (['\n'], .positional ⟨.single, "x=\"1\" ".toList⟩),
        (['\u200B'], .named "é".toList [] [] ⟨.bare, "b=c/".toList⟩),
        ([' '], .named "note-1".toList [] [] ⟨.single, "say \"\\x42\"".toList⟩)], ['\u200B']⟩
    list.text = " first\u00A0\u200BNote-1\t= \u200B\"a\\x41\"\n'x=\"1\" '\u200Bé=b=c/" ++
        " note-1='say \"\\x42\"'\u200B" ∧
      list.WellFormed ∧ (readAttributes list.text).get "note-1" = some "say \"B\"" ∧
      (readAttributes list.text).get "é" = some "b=c/" ∧
      (readAttributes list.text).get "x" = none := by
  intro list
  have well : list.WellFormed := by decide +kernel
  have read := get_readAttributes_written list well
  refine ⟨by decide +kernel, well, ?_, ?_, ?_⟩
  all_goals
    rw [read]
    decide +kernel

end VisibilityRules.Shortcode
