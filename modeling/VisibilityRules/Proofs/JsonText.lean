import Mathlib.Data.List.Forall2
import VisibilityRules.Json.Record
import VisibilityRules.Proofs.JsonStrings

set_option autoImplicit false

/-!
JSON values read back from their text. What an open array or object encloses is read on from the
state that its opening bracket leaves.
-/
namespace VisibilityRules.Json

/-! ### Reading on from a state -/

def readFrom (s : State) (text : List Char) : Option State := (lex? text).bind (run s)

@[simp] theorem readFrom_nil (s : State) : readFrom s [] = some s := by
  rw [readFrom, lex?]
  rfl

theorem readFrom_blanks_append (s : State) {blanks : List Char} (blank : ∀ c ∈ blanks, isBlank c)
    (text : List Char) : readFrom s (blanks ++ text) = readFrom s text := by
  induction blanks with
  | nil => rfl
  | cons c blanks ih =>
    obtain ⟨first, others⟩ := List.forall_mem_cons.mp blank
    rw [List.cons_append, readFrom, lex?, if_pos first]
    exact ih others

theorem readFrom_blanks (s : State) {blanks : List Char} (blank : ∀ c ∈ blanks, isBlank c) :
    readFrom s blanks = some s := by
  have read := readFrom_blanks_append s blank []
  rwa [List.append_nil, readFrom_nil] at read

theorem readToken_blank {c : Char} {rest : List Char} (blank : isBlank c) :
    readToken? (c :: rest) = none := by
  simp only [isBlank, Bool.or_eq_true, beq_iff_eq] at blank
  rcases blank with ((rfl | rfl) | rfl) | rfl
  all_goals rfl

theorem lex_token {text rest : List Char} {token : Token}
    (read : readToken? text = some (token, rest)) :
    lex? text = (lex? rest).map (token :: ·) := by
  cases text with
  | nil =>
    have nothing : readToken? [] = none := rfl
    rw [nothing] at read
    exact nomatch read
  | cons c text =>
    have visible : ¬ isBlank c := by
      intro blank
      rw [readToken_blank blank] at read
      exact nomatch read
    rw [lex?, if_neg visible]
    split
    next missing => simp [missing] at read
    next token' rest' found =>
      rw [found] at read
      obtain ⟨rfl, rfl⟩ := Prod.mk.inj (Option.some.inj read)
      rfl

theorem readFrom_token {s s' : State} {text rest : List Char} {token : Token}
    (read : readToken? text = some (token, rest)) (next : step s token = some s') :
    readFrom s text = readFrom s' rest := by
  rw [readFrom, lex_token read, readFrom, Option.bind_map]
  refine congrArg _ (funext fun tokens => ?_)
  simp only [Function.comp_apply, run, next, Option.bind_some]

/-! ### Values -/

theorem mapM_map {α β γ : Type} {write : α → β} {read? : β → Option γ} {meant : α → γ}
    (each : ∀ a, read? (write a) = some (meant a)) (items : List α) :
    (items.map write).mapM read? = some (items.map meant) := by
  induction items with
  | nil => rfl
  | cons a items ih => simp [each, ih]

/-- The values that are written: every numeral is that of an integer. -/
inductive Value.IsWritten : Value → Prop
  | null : IsWritten .null
  | bool (b : Bool) : IsWritten (.bool b)
  | number {n : Numeral} : n.IsInteger → IsWritten (.number n)
  | string (s : Option String) : IsWritten (.string s)
  | array {items : List Value} : (∀ v ∈ items, v.IsWritten) → IsWritten (.array items)
  | object {members : List (Option String × Value)} :
      (∀ member ∈ members, member.2.IsWritten) → IsWritten (.object members)

theorem isWritten_record {members : List (String × Value)}
    (written : ∀ member ∈ members, member.2.IsWritten) : (Value.record members).IsWritten := by
  refine .object fun member mem => ?_
  obtain ⟨named, listed, rfl⟩ := List.mem_map.mp mem
  exact written named listed

theorem isWritten_optional (text : Option String) : (Value.orNull .text text).IsWritten := by
  cases text with
  | none => exact .null
  | some text => exact .string (some text)

theorem endsNumeral_cons (c : Char) (rest : List Char) (mark : c ∈ [',', ']', '\x7d']) :
    EndsNumeral (c :: rest) := by
  intro c' head
  obtain rfl : c = c' := by simpa using head
  simp only [List.mem_cons, List.not_mem_nil, or_false] at mark
  rcases mark with rfl | rfl | rfl
  all_goals decide

theorem endsNumeral_blanks {blanks : List Char} (blank : ∀ c ∈ blanks, isBlank c)
    {rest : List Char} (ends : EndsNumeral rest) : EndsNumeral (blanks ++ rest) := by
  cases blanks with
  | nil => exact ends
  | cons c blanks =>
    intro c' head
    obtain rfl : c = c' := by simpa using head
    have first := blank c (by simp)
    simp only [isBlank, Bool.or_eq_true, beq_iff_eq] at first
    rcases first with ((rfl | rfl) | rfl) | rfl
    all_goals decide

/-- A value may begin in this state, with these frames around it. -/
def Begins (s : State) (frames : List Frame) : Prop :=
  ∀ token, token ≠ .closeArray → step s token = beginValue frames token

theorem begins_value (frames : List Frame) : Begins ⟨.value, frames⟩ frames :=
  fun token _ => by cases token <;> rfl

theorem begins_item (frames : List Frame) : Begins ⟨.itemOrEnd, frames⟩ (.items [] :: frames) :=
  fun token other => by cases token <;> first | rfl | exact absurd rfl other

/-- A key may stand in this state, behind these members. -/
def BeginsMember (s : State) (before : List (Option String × Value)) (frames : List Frame) : Prop :=
  ∀ key, step s (.string key) = some ⟨.colon before key, frames⟩

theorem beginsMember_first (frames : List Frame) : BeginsMember ⟨.keyOrEnd, frames⟩ [] frames :=
  fun _ => rfl

theorem beginsMember_next (before : List (Option String × Value)) (frames : List Frame) :
    BeginsMember ⟨.key before, frames⟩ before frames := fun _ => rfl

/-- Wherever a value may begin, the text is read as this one. -/
def Spells (text : List Char) (v : Value) : Prop :=
  ∀ ⦃s : State⦄ ⦃frames : List Frame⦄ ⦃rest : List Char⦄, Begins s frames → EndsNumeral rest →
    readFrom s (text ++ rest) = readFrom ⟨.after v, frames⟩ rest

def SpellsMember (text : List Char) (member : Option String × Value) : Prop :=
  ∀ ⦃s : State⦄ ⦃before : List (Option String × Value)⦄ ⦃frames : List Frame⦄ ⦃rest : List Char⦄,
    BeginsMember s before frames → EndsNumeral rest →
    readFrom s (text ++ rest) = readFrom ⟨.after member.2, .members before member.1 :: frames⟩ rest

theorem spells_null : Spells "null".toList .null :=
  fun _ _ _ begins _ => readFrom_token rfl (begins .null nofun)

theorem spells_bool (b : Bool) : Spells (printAtom (.bool b)) (.bool b) := by
  intro s frames rest begins _
  cases b with
  | true => exact readFrom_token rfl (begins (.bool true) nofun)
  | false => exact readFrom_token rfl (begins (.bool false) nofun)

theorem spells_number {n : Numeral} {text : List Char} (writes : WritesNumeral n text) :
    Spells text (.number n) :=
  fun _ _ _ begins ends => readFrom_token (readToken_written ends writes) (begins _ nofun)

theorem spells_string {s : Option String} {text : List Char} (writes : WritesString s text) :
    Spells text (.string s) :=
  fun _ _ _ begins _ => readFrom_token (readToken_string writes _) (begins _ nofun)

/-- Blanks around a value change nothing. -/
theorem Spells.padded {front text back : List Char} {v : Value} (spells : Spells text v)
    (leading : ∀ c ∈ front, isBlank c) (trailing : ∀ c ∈ back, isBlank c) :
    Spells (front ++ text ++ back) v := by
  intro s frames rest begins ends
  have read := spells begins (endsNumeral_blanks trailing ends)
  rw [readFrom_blanks_append _ trailing] at read
  simpa only [List.append_assoc, readFrom_blanks_append _ leading] using read

theorem spellsMember {front name back text : List Char} {key : Option String} {v : Value}
    (writes : WritesString key name) (leading : ∀ c ∈ front, isBlank c)
    (trailing : ∀ c ∈ back, isBlank c) (spells : Spells text v) :
    SpellsMember (front ++ name ++ back ++ ':' :: text) (key, v) := by
  intro s before frames rest begins ends
  have named := readFrom_token (readToken_string writes (back ++ ':' :: (text ++ rest)))
    (begins key)
  have colon : readFrom ⟨.colon before key, frames⟩ (':' :: (text ++ rest)) =
      readFrom ⟨.value, .members before key :: frames⟩ (text ++ rest) := readFrom_token rfl rfl
  have value := spells (begins_value (.members before key :: frames)) ends
  rw [readFrom_blanks_append _ trailing, colon, value] at named
  simpa only [List.append_assoc, List.cons_append, readFrom_blanks_append _ leading] using named

/-- What stands between two brackets, with these blanks in front of every item and of the last
bracket. -/
def enclose (first last : Char) (gap margin : List Char) (texts : List (List Char)) : List Char :=
  if texts.isEmpty then [first, last]
  else first :: gap ++ joinWith (',' :: gap) texts ++ margin ++ [last]

section

variable {gap margin : List Char} (gap_blank : ∀ c ∈ gap, isBlank c)
  (margin_blank : ∀ c ∈ margin, isBlank c)
include gap_blank margin_blank

theorem readFrom_items {texts : List (List Char)} {text : List Char} {items before : List Value}
    {v : Value} {s : State} {frames : List Frame} {rest : List Char} (first : Spells text v)
    (others : List.Forall₂ Spells texts items) (begins : Begins s (.items before :: frames)) :
    readFrom s (joinWith (',' :: gap) (text :: texts) ++ (margin ++ ']' :: rest)) =
      readFrom ⟨.after (.array (before.reverse ++ v :: items)), frames⟩ rest := by
  -- The first item may stand right behind the bracket, the others stand behind a comma.
  induction others generalizing s text v before with
  | nil =>
    have read := first begins (endsNumeral_blanks margin_blank (endsNumeral_cons ']' rest (by simp)))
    have closed : readFrom ⟨.after v, .items before :: frames⟩ (']' :: rest) =
        readFrom ⟨.after (.array (v :: before).reverse), frames⟩ rest := readFrom_token rfl rfl
    rw [readFrom_blanks_append _ margin_blank, closed, List.reverse_cons] at read
    exact read
  | @cons text' w texts items next others ih =>
    let behind := joinWith (',' :: gap) (text' :: texts) ++ (margin ++ ']' :: rest)
    have read := first begins (endsNumeral_cons ',' (gap ++ behind) (by simp))
    have comma : readFrom ⟨.after v, .items before :: frames⟩ (',' :: (gap ++ behind)) =
        readFrom ⟨.value, .items (v :: before) :: frames⟩ (gap ++ behind) := readFrom_token rfl rfl
    have later := ih next (begins_value (.items (v :: before) :: frames))
    rw [comma, readFrom_blanks_append _ gap_blank, later] at read
    simpa [joinWith, behind] using read

theorem readFrom_members {texts : List (List Char)} {text : List Char}
    {members before : List (Option String × Value)} {member : Option String × Value} {s : State}
    {frames : List Frame} {rest : List Char} (first : SpellsMember text member)
    (others : List.Forall₂ SpellsMember texts members) (begins : BeginsMember s before frames) :
    readFrom s (joinWith (',' :: gap) (text :: texts) ++ (margin ++ '\x7d' :: rest)) =
      readFrom ⟨.after (.object (before.reverse ++ member :: members)), frames⟩ rest := by
  induction others generalizing s text member before with
  | nil =>
    have read := first begins
      (endsNumeral_blanks margin_blank (endsNumeral_cons '\x7d' rest (by simp)))
    have closed : readFrom ⟨.after member.2, .members before member.1 :: frames⟩ ('\x7d' :: rest) =
        readFrom ⟨.after (.object (member :: before).reverse), frames⟩ rest := readFrom_token rfl rfl
    rw [readFrom_blanks_append _ margin_blank, closed, List.reverse_cons] at read
    exact read
  | @cons text' next texts members spelled others ih =>
    let behind := joinWith (',' :: gap) (text' :: texts) ++ (margin ++ '\x7d' :: rest)
    have read := first begins (endsNumeral_cons ',' (gap ++ behind) (by simp))
    have comma : readFrom ⟨.after member.2, .members before member.1 :: frames⟩
          (',' :: (gap ++ behind)) =
        readFrom ⟨.key (member :: before), frames⟩ (gap ++ behind) := readFrom_token rfl rfl
    have later := ih spelled (beginsMember_next (member :: before) frames)
    rw [comma, readFrom_blanks_append _ gap_blank, later] at read
    simpa [joinWith, behind] using read

theorem spells_array {texts : List (List Char)} {items : List Value}
    (each : List.Forall₂ Spells texts items) :
    Spells (enclose '[' ']' gap margin texts) (.array items) := by
  intro s frames rest begins _
  have opened (text : List Char) :
      readFrom s ('[' :: text) = readFrom ⟨.itemOrEnd, frames⟩ text :=
    readFrom_token rfl (begins .openArray nofun)
  cases each with
  | nil => exact (opened (']' :: rest)).trans (readFrom_token rfl rfl)
  | cons first others =>
    have inner := @readFrom_items _ _ gap_blank margin_blank _ _ _ _ _ _ _ rest first others
      (begins_item frames)
    rw [← readFrom_blanks_append _ gap_blank] at inner
    simpa [enclose] using (opened _).trans inner

theorem spells_object {texts : List (List Char)} {members : List (Option String × Value)}
    (each : List.Forall₂ SpellsMember texts members) :
    Spells (enclose '\x7b' '\x7d' gap margin texts) (.object members) := by
  intro s frames rest begins _
  have opened (text : List Char) :
      readFrom s ('\x7b' :: text) = readFrom ⟨.keyOrEnd, frames⟩ text :=
    readFrom_token rfl (begins .openObject nofun)
  cases each with
  | nil => exact (opened ('\x7d' :: rest)).trans (readFrom_token rfl rfl)
  | cons first others =>
    have inner := @readFrom_members _ _ gap_blank margin_blank _ _ _ _ _ _ _ rest first others
      (beginsMember_first frames)
    rw [← readFrom_blanks_append _ gap_blank] at inner
    simpa [enclose] using (opened _).trans inner

end

/-! ### On one line and indented -/

theorem printItems_eq (items : List Value) : printItems items = items.map print := by
  induction items with
  | nil => rfl
  | cons v items ih => rw [printItems, ih, List.map_cons]

theorem printMembers_eq (members : List (Option String × Value)) :
    printMembers members = members.map fun m => printString m.1 ++ ':' :: print m.2 := by
  induction members with
  | nil => rfl
  | cons member members ih => rw [printMembers, ih, List.map_cons]

theorem indentedItems_eq (depth : Nat) (items : List Value) :
    indentedItems depth items = items.map (printIndented depth) := by
  induction items with
  | nil => rfl
  | cons v items ih => rw [indentedItems, ih, List.map_cons]

theorem indentedMembers_eq (depth : Nat) (members : List (Option String × Value)) :
    indentedMembers depth members =
      members.map fun m => printString m.1 ++ ':' :: ([' '] ++ printIndented depth m.2) := by
  induction members with
  | nil => rfl
  | cons member members ih => rw [indentedMembers, ih, List.map_cons]; simp

theorem enclose_one_line (first last : Char) (texts : List (List Char)) :
    first :: joinWith [','] texts ++ [last] = enclose first last [] [] texts := by
  cases texts with
  | nil => rfl
  | cons text texts => simp [enclose]

theorem isBlank_of_mem_lineBreak (depth : Nat) : ∀ c ∈ lineBreak depth, isBlank c := by
  refine List.forall_mem_cons.mpr ⟨rfl, fun c mem => ?_⟩
  rw [List.eq_of_mem_replicate mem]
  rfl

theorem forall₂_map {α β : Type} {R : β → α → Prop} {write : α → β} {items : List α}
    (each : ∀ a ∈ items, R (write a) a) : List.Forall₂ R (items.map write) items :=
  List.forall₂_map_left_iff.mpr (List.forall₂_same.mpr each)

theorem no_blanks : ∀ c ∈ ([] : List Char), isBlank c := nofun

theorem spellsMember_print {key : Option String} {text : List Char} {v : Value}
    (spells : Spells text v) : SpellsMember (printString key ++ ':' :: text) (key, v) := by
  simpa using spellsMember (writesString_print key) no_blanks no_blanks spells

theorem Value.IsWritten.spells_print {v : Value} (written : v.IsWritten) : Spells (print v) v := by
  induction written with
  | null => exact spells_null
  | bool b => exact spells_bool b
  | number integer => exact spells_number integer.writes
  | string text => exact spells_string (writesString_print text)
  | array _ ih =>
    rw [print, enclose_one_line, printItems_eq]
    exact spells_array no_blanks no_blanks (forall₂_map ih)
  | object _ ih =>
    rw [print, enclose_one_line, printMembers_eq]
    exact spells_object no_blanks no_blanks
      (forall₂_map fun member mem => spellsMember_print (ih member mem))

theorem Value.IsWritten.spells_printIndented {v : Value} (written : v.IsWritten) (depth : Nat) :
    Spells (printIndented depth v) v := by
  induction written generalizing depth with
  | null => exact spells_null
  | bool b => exact spells_bool b
  | number integer => exact spells_number integer.writes
  | string text => exact spells_string (writesString_print text)
  | array _ ih =>
    rw [printIndented, indentedItems_eq]
    exact spells_array (isBlank_of_mem_lineBreak _) (isBlank_of_mem_lineBreak _)
      (forall₂_map fun v mem => ih v mem (depth + 1))
  | object _ ih =>
    have space : ∀ c ∈ [' '], isBlank c := List.forall_mem_singleton.mpr rfl
    have spaced {text : List Char} {v : Value} (spells : Spells text v) :
        Spells ([' '] ++ text) v := by
      simpa using spells.padded space no_blanks
    rw [printIndented, indentedMembers_eq]
    exact spells_object (isBlank_of_mem_lineBreak _) (isBlank_of_mem_lineBreak _)
      (forall₂_map fun member mem => spellsMember_print (spaced (ih member mem (depth + 1))))

theorem Spells.ofText {text : List Char} {v : Value} (spells : Spells text v) {blanks : List Char}
    (blank : ∀ c ∈ blanks, isBlank c) : Value.ofText? (text ++ blanks) = some v := by
  have ends : EndsNumeral blanks := List.append_nil blanks ▸ endsNumeral_blanks blank nofun
  have read := spells (begins_value []) ends
  rw [readFrom_blanks _ blank] at read
  obtain ⟨tokens, lexed, ran⟩ := Option.bind_eq_some_iff.mp read
  rw [Value.ofText?, lexed, Option.bind_some, ofTokens?, ran]

/-- The text of a value reads back as the value, also with blanks behind it. -/
theorem ofText_print_append {v : Value} {blanks : List Char} (written : v.IsWritten)
    (blank : ∀ c ∈ blanks, isBlank c) : Value.ofText? (print v ++ blanks) = some v :=
  written.spells_print.ofText blank

theorem ofText_print {v : Value} (written : v.IsWritten) : Value.ofText? (print v) = some v := by
  have read := ofText_print_append written no_blanks
  rwa [List.append_nil] at read

theorem ofText_printIndented {v : Value} (written : v.IsWritten) :
    Value.ofText? (printIndented 0 v) = some v := by
  have read := (written.spells_printIndented 0).ofText no_blanks
  rwa [List.append_nil] at read

end VisibilityRules.Json
