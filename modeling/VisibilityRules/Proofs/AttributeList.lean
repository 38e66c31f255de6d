import VisibilityRules.Proofs.WrittenItems

set_option autoImplicit false

/-!
Attributes written into a tag and read back. What separates, ends or escapes must not stand in
them, and their keys must be in lower case; then the list that is read is the one written.
-/
namespace VisibilityRules

/-- A key and a value that can be written into a tag as they are. -/
structure IsPlain (entry : String × String) : Prop where
  key_nonempty : entry.1 ≠ ""
  key_chars : ∀ c ∈ entry.1.toList, Text.isKeyChar c ∧ ¬ ('A' ≤ c ∧ c ≤ 'Z')
  value_chars : ∀ c ∈ entry.2.toList, c ∉ ['"', '\\', ']', '\u00A0', '\u200B']

def Attributes.ArePlain (attributes : Attributes) : Prop :=
  ∀ key value, attributes.get key = some value → IsPlain (key, value)

theorem Attributes.ArePlain.of_mem {attributes : Attributes} (plain : attributes.ArePlain)
    {entry : String × String} (mem : entry ∈ attributes.toList) : IsPlain entry :=
  plain entry.1 entry.2 (Std.ExtTreeMap.mem_toList_iff_getElem?_eq_some.mp mem)

instance (entry : String × String) : Decidable (IsPlain entry) :=
  -- Characters are many, so they are asked one by one along the texts.
  decidable_of_iff (entry.1 ≠ "" ∧
      entry.1.toList.all (fun c => decide (Text.isKeyChar c ∧ ¬ ('A' ≤ c ∧ c ≤ 'Z'))) ∧
      entry.2.toList.all fun c => decide (c ∉ ['"', '\\', ']', '\u00A0', '\u200B']))
    ⟨fun ⟨nonempty, key, value⟩ => ⟨nonempty,
        fun c mem => of_decide_eq_true (List.all_eq_true.mp key c mem),
        fun c mem => of_decide_eq_true (List.all_eq_true.mp value c mem)⟩,
      fun plain => ⟨plain.key_nonempty,
        List.all_eq_true.mpr fun c mem => decide_eq_true (plain.key_chars c mem),
        List.all_eq_true.mpr fun c mem => decide_eq_true (plain.value_chars c mem)⟩⟩

instance (attributes : Attributes) : Decidable attributes.ArePlain :=
  decidable_of_iff (∀ entry ∈ attributes.toList, IsPlain entry)
    ⟨fun plain key value held =>
      plain (key, value) (Std.ExtTreeMap.mem_toList_iff_getElem?_eq_some.mpr held),
      fun plain _ => plain.of_mem⟩

namespace Shortcode

theorem unescape_of_no_backslash {value : List Char} (plain : '\\' ∉ value) :
    unescape value = value := by
  induction value with
  | nil => simp [unescape]
  | cons c value ih =>
    rw [List.mem_cons, not_or] at plain
    rw [unescape_cons (Ne.symm plain.1), ih plain.2]

theorem lowerAscii_of_lower {c : Char} (lower : ¬ ('A' ≤ c ∧ c ≤ 'Z')) :
    Text.lowerAscii c = c := by
  rw [Text.lowerAscii, if_neg (by simpa using lower)]

/-! ### One attribute -/

def entryText (entry : String × String) : List Char := (Attributes.renderEntry entry).toList

def writtenEntry (entry : String × String) : WrittenItem :=
  .named entry.1.toList [] [] ⟨.double, entry.2.toList⟩

theorem text_writtenEntry (entry : String × String) :
    (writtenEntry entry).text = entryText entry := by
  simp [writtenEntry, WrittenItem.text, WrittenValue.text, entryText, Attributes.renderEntry]

section

variable {entry : String × String} (plain : IsPlain entry)
include plain

theorem not_mem_key {c : Char} (other : Text.isKeyChar c = false) : c ∉ entry.1.toList := by
  intro mem
  simp [(plain.key_chars c mem).1] at other

theorem not_mem_entryText {c : Char} (other : c ∈ [']', '\u00A0', '\u200B']) :
    c ∉ entryText entry := by
  have key : c ∉ entry.1.toList :=
    not_mem_key plain (isKeyChar_separator (by simp_all))
  have value : c ∉ entry.2.toList := fun mem => plain.value_chars c mem (by simp_all)
  have marks : c ≠ '=' ∧ c ≠ '"' := by
    constructor <;> rintro rfl <;> simp at other
  simp [entryText, Attributes.renderEntry, key, value, marks]

theorem wellFormed_writtenEntry : (writtenEntry entry).WellFormed := by
  have nonempty : entry.1.toList ≠ [] := by simpa using plain.key_nonempty
  have key : ∀ c ∈ entry.1.toList, Text.isKeyChar c = true :=
    fun c mem => (plain.key_chars c mem).1
  refine ⟨⟨nonempty, key⟩, by simp, ?_⟩
  constructor
  case visible =>
    intro c mem
    have separates := plain.value_chars c mem
    simp only [List.mem_cons, not_or] at separates
    simp [isInvisible, separates]
  case double => exact fun _ mem => plain.value_chars _ mem (by simp)
  case single => simp
  case bare => simp

theorem setItem_entry (attributes : Attributes) :
    setItem attributes (.named entry.1.toList entry.2.toList) =
      attributes.insert entry.1 entry.2 := by
  have lower : entry.1.toList.map Text.lowerAscii = entry.1.toList := by
    rw [List.map_congr_left fun c mem => lowerAscii_of_lower (plain.key_chars c mem).2,
      List.map_id']
  have kept : unescape entry.2.toList = entry.2.toList :=
    unescape_of_no_backslash fun mem => plain.value_chars _ mem (by simp)
  rw [setItem, lower, kept, String.ofList_toList, String.ofList_toList]

end

/-! ### The list -/

theorem not_mem_intercalate {c : Char} {separator : List Char} {pieces : List (List Char)}
    (between : c ∉ separator) (within : ∀ piece ∈ pieces, c ∉ piece) :
    c ∉ separator.intercalate pieces := by
  induction pieces with
  | nil => simp
  | cons piece pieces ih =>
    obtain ⟨first, others⟩ := List.forall_mem_cons.mp within
    cases pieces with
    | nil => simpa using first
    | cons next pieces =>
      simp only [List.intercalate_cons_cons, List.mem_append, not_or]
      exact ⟨⟨first, between⟩, ih others⟩

/-- Each entry has the blank in front of it as its gap; if there is none, the blank is left. -/
def writtenEntries (entries : List (String × String)) : WrittenList where
  entries := entries.map fun entry => ([' '], writtenEntry entry)
  trail := if entries.isEmpty then [' '] else []

theorem text_writtenEntries (entries : List (String × String)) :
    (writtenEntries entries).text.toList = ' ' :: [' '].intercalate (entries.map entryText) := by
  cases entries with
  | nil => rfl
  | cons entry entries =>
    simp only [WrittenList.text, writtenEntries, String.toList_ofList, entriesText]
    induction entries generalizing entry with
    | nil => simp [text_writtenEntry]
    | cons next entries ih =>
      have later := ih next
      simp_all [text_writtenEntry]

theorem wellFormed_writtenEntries {entries : List (String × String)}
    (plain : ∀ entry ∈ entries, IsPlain entry) : (writtenEntries entries).WellFormed := by
  have blank : isGapChar ' ' = true := by decide
  constructor
  case items =>
    exact List.forall_mem_map.mpr fun entry mem => wellFormed_writtenEntry (plain entry mem)
  case gaps => exact List.forall_mem_map.mpr fun entry _ => by simp [blank]
  case trail => simp only [writtenEntries]; split <;> simp [blank]
  case apart =>
    intro entry mem
    obtain ⟨_, _, rfl⟩ := List.mem_map.mp (List.mem_of_mem_tail mem)
    exact List.cons_ne_nil _ _

theorem toList_render (attributes : Attributes) :
    attributes.render.toList = [' '].intercalate (attributes.toList.map entryText) := by
  rw [Attributes.render, String.toList_intercalate, List.map_map]
  rfl

theorem getLast_entryText (entry : String × String) : (entryText entry).getLast? = some '"' := by
  rw [entryText, Attributes.renderEntry, String.toList_append]
  exact List.getLast?_concat

theorem getLast_render (attributes : Attributes) :
    (" " ++ attributes.render).toList.getLast? ≠ some '/' := by
  have quoted (entries : List (String × String)) :
      ([' '].intercalate (entries.map entryText)).getLast? =
        if entries.isEmpty then none else some '"' := by
    induction entries with
    | nil => rfl
    | cons entry entries ih =>
      cases entries with
      | nil => simp [getLast_entryText]
      | cons next entries =>
        rw [List.map_cons] at ih
        rw [List.map_cons, List.map_cons, List.intercalate_cons_cons, List.getLast?_append, ih]
        rfl
  rw [String.toList_append, toList_render, List.getLast?_append, quoted]
  cases attributes.toList with
  | nil => simp
  | cons entry entries => simp

theorem foldl_setItem {entries : List (String × String)} (plain : ∀ entry ∈ entries, IsPlain entry)
    (attributes : Attributes) :
    (entries.map fun entry => .named entry.1.toList entry.2.toList).foldl setItem attributes =
      entries.foldl (fun d (key, value) => d.insert key value) attributes := by
  induction entries generalizing attributes with
  | nil => rfl
  | cons entry entries ih =>
    obtain ⟨first, others⟩ := List.forall_mem_cons.mp plain
    rw [List.map_cons, List.foldl_cons, List.foldl_cons, setItem_entry first]
    exact ih others _

section

variable {attributes : Attributes} (plain : attributes.ArePlain)
include plain

theorem not_mem_render {c : Char} (other : c ∈ [']', '\u00A0', '\u200B']) :
    c ∉ (" " ++ attributes.render).toList := by
  have blank : c ≠ ' ' := by rintro rfl; simp at other
  rw [String.toList_append, toList_render]
  refine List.not_mem_cons_of_ne_of_not_mem blank (not_mem_intercalate (by simpa using blank) ?_)
  intro piece mem
  obtain ⟨entry, listed, rfl⟩ := List.mem_map.mp mem
  exact not_mem_entryText (plain.of_mem listed) other

theorem readAttributes_render : readAttributes (" " ++ attributes.render) = attributes := by
  have written : (" " ++ attributes.render).toList =
      (writtenEntries attributes.toList).text.toList := by
    rw [text_writtenEntries, String.toList_append, toList_render]
    rfl
  have items := items_written (wellFormed_writtenEntries fun _ => plain.of_mem)
  rw [readAttributes, written, items, writtenEntries, List.map_map]
  exact (foldl_setItem (fun _ => plain.of_mem) ∅).trans (Dictionary.ofEntries_toList attributes)

end

end Shortcode

end VisibilityRules
