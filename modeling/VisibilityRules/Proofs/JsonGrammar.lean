import VisibilityRules.Proofs.JsonText

set_option autoImplicit false

/-!
The grammar of JSON texts. Whatever blanks, escapes and forms of numerals a text is written with, it
is read as the value it stands for.
-/
namespace VisibilityRules.Json

/-- A member of an object with its text: blanks around its name and a value that has its own. -/
structure WrittenMember where
  front : List Char
  name : List Char
  back : List Char
  valueText : List Char
  key : Option String
  value : Value

namespace WrittenMember

def text (m : WrittenMember) : List Char := m.front ++ m.name ++ m.back ++ ':' :: m.valueText

def member (m : WrittenMember) : Option String × Value := (m.key, m.value)

end WrittenMember

inductive IsTextOf : List Char → Value → Prop
  | null : IsTextOf "null".toList .null
  | truth : IsTextOf "true".toList (.bool true)
  | falsehood : IsTextOf "false".toList (.bool false)
  | number {n : Numeral} {text : List Char} : WritesNumeral n text → IsTextOf text (.number n)
  | string {s : Option String} {text : List Char} : WritesString s text → IsTextOf text (.string s)
  | array {parts : List (List Char × Value)} :
      (∀ part ∈ parts, IsTextOf part.1 part.2) →
      IsTextOf ('[' :: joinWith [','] (parts.map (·.1)) ++ [']']) (.array (parts.map (·.2)))
  | object {parts : List WrittenMember} :
      (∀ m ∈ parts, (∀ c ∈ m.front ++ m.back, isBlank c) ∧ WritesString m.key m.name) →
      (∀ m ∈ parts, IsTextOf m.valueText m.value) →
      IsTextOf ('\x7b' :: joinWith [','] (parts.map (·.text)) ++ ['\x7d'])
        (.object (parts.map (·.member)))
  -- Blanks may stand around any value, and where there are neither items nor members.
  | padded {front text back : List Char} {v : Value} :
      (∀ c ∈ front ++ back, isBlank c) → IsTextOf text v → IsTextOf (front ++ text ++ back) v
  | emptyArray {blanks : List Char} :
      (∀ c ∈ blanks, isBlank c) → IsTextOf ('[' :: blanks ++ [']']) (.array [])
  | emptyObject {blanks : List Char} :
      (∀ c ∈ blanks, isBlank c) → IsTextOf ('\x7b' :: blanks ++ ['\x7d']) (.object [])

theorem spells_emptyArray {blanks : List Char} (blank : ∀ c ∈ blanks, isBlank c) :
    Spells ('[' :: blanks ++ [']']) (.array []) := by
  intro s frames rest begins _
  have opened : readFrom s ('[' :: (blanks ++ ']' :: rest)) =
      readFrom ⟨.itemOrEnd, frames⟩ (blanks ++ ']' :: rest) :=
    readFrom_token rfl (begins .openArray nofun)
  have closed : readFrom ⟨.itemOrEnd, frames⟩ (']' :: rest) =
      readFrom ⟨.after (.array []), frames⟩ rest := readFrom_token rfl rfl
  rw [readFrom_blanks_append _ blank, closed] at opened
  simpa using opened

theorem spells_emptyObject {blanks : List Char} (blank : ∀ c ∈ blanks, isBlank c) :
    Spells ('\x7b' :: blanks ++ ['\x7d']) (.object []) := by
  intro s frames rest begins _
  have opened : readFrom s ('\x7b' :: (blanks ++ '\x7d' :: rest)) =
      readFrom ⟨.keyOrEnd, frames⟩ (blanks ++ '\x7d' :: rest) :=
    readFrom_token rfl (begins .openObject nofun)
  have closed : readFrom ⟨.keyOrEnd, frames⟩ ('\x7d' :: rest) =
      readFrom ⟨.after (.object []), frames⟩ rest := readFrom_token rfl rfl
  rw [readFrom_blanks_append _ blank, closed] at opened
  simpa using opened

theorem IsTextOf.spells {text : List Char} {v : Value} (written : IsTextOf text v) :
    Spells text v := by
  induction written with
  | null => exact spells_null
  | truth => exact spells_bool true
  | falsehood => exact spells_bool false
  | number writes => exact spells_number writes
  | string writes => exact spells_string writes
  | array _ ih =>
    rw [enclose_one_line]
    refine spells_array no_blanks no_blanks ?_
    rw [List.forall₂_map_left_iff, List.forall₂_map_right_iff]
    exact List.forall₂_same.mpr ih
  | object names _ ih =>
    rw [enclose_one_line]
    refine spells_object no_blanks no_blanks ?_
    rw [List.forall₂_map_left_iff, List.forall₂_map_right_iff]
    refine List.forall₂_same.mpr fun m mem => ?_
    obtain ⟨blank, name⟩ := names m mem
    obtain ⟨leading, trailing⟩ := List.forall_mem_append.mp blank
    exact spellsMember name leading trailing (ih m mem)
  | padded blank _ ih =>
    obtain ⟨leading, trailing⟩ := List.forall_mem_append.mp blank
    exact ih.padded leading trailing
  | emptyArray blank => exact spells_emptyArray blank
  | emptyObject blank => exact spells_emptyObject blank

/-- A text that the grammar allows is read as the value it stands for. -/
theorem IsTextOf.ofText {text : List Char} {v : Value} (written : IsTextOf text v) :
    Value.ofText? text = some v := by
  have read := written.spells.ofText no_blanks
  rwa [List.append_nil] at read

end VisibilityRules.Json
