import VisibilityRules.Proofs.JsonGrammar
import VisibilityRules.Proofs.Payload

set_option autoImplicit false

/-!
Parameter lists in payloads of any layout. Each element of the list becomes one parameter, and a
single element that is none leaves nothing of the list.
-/
namespace VisibilityRules.Payload

open Json (Value IsTextOf Numeral)

abbrev Members := List (Option String × Value)

/-- The value of a name or of a value, and the text it gives. -/
inductive Gives : Value → Option String → Prop
  | null : Gives .null none
  | text (s : String) : Gives (.text s) (some s)
  | integer {n : Int} : -2 ^ 63 ≤ n → n < 2 ^ 64 → Gives (.int n) (some (toString n))
  | truth : Gives (.bool true) (some "1")
  | falsehood : Gives (.bool false) (some "")

/-- The text of a field that stands in an object once or not at all. -/
inductive FieldGives (field : String) : Members → Option String → Prop
  | missing {members : Members} :
      (∀ m ∈ members, m.1 ≠ some field) → FieldGives field members none
  | once {before after : Members} {v : Value} {text : Option String} :
      (∀ m ∈ before ++ after, m.1 ≠ some field) → Gives v text →
      FieldGives field (before ++ (some field, v) :: after) text

/-- An object that stands for a parameter. Members of other names count for nothing. -/
inductive Describes : Value → Parameter → Prop
  | object {members : Members} {p : Parameter} :
      (∀ m ∈ members, m.1 ≠ none) → FieldGives "name" members p.name →
      FieldGives "value" members p.value → Describes (.object members) p

def IsScalar : Value → Prop
  | .array _ | .object _ => False
  | _ => True

/-- An element that stands for no parameter. -/
inductive IsUnfit : Value → Prop
  | scalar {v : Value} : IsScalar v → IsUnfit v
  | nested {members : Members} {field : String} {v : Value} :
      field ∈ ["name", "value"] → (some field, v) ∈ members → ¬ IsScalar v →
      IsUnfit (.object members)
  | repeated {before between after : Members} {field : String} {v w : Value} :
      field ∈ ["name", "value"] →
      IsUnfit (.object (before ++ (some field, v) :: between ++ (some field, w) :: after))

/-! ### Scalars -/

theorem word_ofInt {n : Int} (lower : -2 ^ 63 ≤ n) (upper : n < 2 ^ 64) :
    (Numeral.ofInt n).word? = some n := by
  have magnitude : (Numeral.ofInt n).wholeValue = n.natAbs := Json.appendDigits_decimalDigits _
  have integer : ((Numeral.ofInt n).fraction.isSome || (Numeral.ofInt n).exponent.isSome) = false :=
    rfl
  have sign : (Numeral.ofInt n).negative = decide (n < 0) := rfl
  rw [Numeral.word?, integer, if_neg Bool.false_ne_true, sign, magnitude]
  by_cases negative : n < 0
  · rw [if_pos (decide_eq_true negative), if_pos (by omega)]
    exact congrArg some (by omega)
  · rw [if_neg (by simpa using negative), if_pos (by omega)]
    exact congrArg some (by omega)

theorem Gives.scalar {v : Value} {text : Option String} (gives : Gives v text) :
    scalar? v = some text := by
  cases gives with
  | integer lower upper =>
    simp only [Value.int, scalar?, Numeral.canonical?, word_ofInt lower upper, Option.map_some]
  | null | text | truth | falsehood => rfl

/-! ### Fields -/

def countField (field : String) (members : Members) : Nat :=
  members.countP fun m => m.1 == some field

theorem countField_eq_zero {field : String} {members : Members}
    (missing : ∀ m ∈ members, m.1 ≠ some field) : countField field members = 0 := by
  rw [countField, List.countP_eq_zero]
  simpa using missing

/-- A field that stands in an object once is found wherever it stands. -/
theorem field_of_countField_le_one {field : String} {members : Members} {v : Value}
    (single : countField field members ≤ 1) (mem : (some field, v) ∈ members) (position : Nat) :
    (Value.object members).field? field position = some v := by
  induction members with
  | nil => exact absurd mem List.not_mem_nil
  | cons m members ih =>
    rw [countField, List.countP_cons] at single
    by_cases here : m.1 = some field
    · rw [if_pos (by simpa using here)] at single
      have others : ∀ m ∈ members, m.1 ≠ some field := by
        have none_left : members.countP (fun m => m.1 == some field) = 0 := by omega
        simpa using List.countP_eq_zero.mp none_left
      rcases List.mem_cons.mp mem with rfl | later
      · rw [Value.field?, List.find?_cons_of_pos (by simp), Option.map_some]
      · exact absurd rfl (others _ later)
    · have later : (some field, v) ∈ members := by
        rcases List.mem_cons.mp mem with rfl | later
        · exact absurd rfl here
        · exact later
      rw [Value.field?, List.find?_cons_of_neg (by simpa using here)]
      exact ih (by rw [countField]; omega) later

theorem field_of_missing {field : String} {members : Members}
    (missing : ∀ m ∈ members, m.1 ≠ some field) (position : Nat) :
    (Value.object members).field? field position = none := by
  rw [Value.field?, List.find?_eq_none.mpr (by simpa using missing), Option.map_none]

theorem isRecord_object {members : Members} :
    (Value.object members).isRecord ["name", "value"] = true ↔
      (∀ m ∈ members, m.1 ≠ none) ∧
        ∀ field ∈ ["name", "value"], countField field members ≤ 1 := by
  simp [Value.isRecord, countField, Option.isSome_iff_ne_none]

/-! ### Elements that are parameters -/

namespace FieldGives

variable {field : String} {members : Members} {text : Option String}
  (gives : FieldGives field members text)

include gives

theorem countField_le_one : countField field members ≤ 1 := by
  cases gives with
  | missing missing => rw [countField_eq_zero missing]; exact Nat.zero_le 1
  | @once before after v _ others _ =>
    obtain ⟨earlier, later⟩ := List.forall_mem_append.mp others
    have split : countField field (before ++ (some field, v) :: after) =
        countField field before + (countField field after + 1) := by
      simp [countField, List.countP_append]
    rw [split, countField_eq_zero earlier, countField_eq_zero later]

theorem readField (position : Nat) :
    (Value.object members).readField field position none scalar? = some text := by
  have single := gives.countField_le_one
  cases gives with
  | missing missing => rw [Value.readField, field_of_missing missing]
  | @once before after v _ _ value =>
    have mem : (some field, v) ∈ before ++ (some field, v) :: after := by simp
    rw [Value.readField, field_of_countField_le_one single mem]
    exact value.scalar

end FieldGives

theorem Describes.ofJson {v : Value} {p : Parameter} (describes : Describes v p) :
    ofJson? v = some p := by
  cases describes with
  | @object members _ named name value =>
    have form : (Value.object members).isRecord ["name", "value"] = true :=
      isRecord_object.mpr ⟨named, by simp [name.countField_le_one, value.countField_le_one]⟩
    simp only [ofJson?, form, if_true, name.readField, value.readField, Option.bind_eq_bind,
      Option.bind_some]

theorem listOfJson_of_describes {items : List Value} {parameters : List Parameter}
    (each : List.Forall₂ Describes items parameters) :
    listOfJson? (.array items) = some parameters := by
  rw [listOfJson?]
  induction each with
  | nil => rfl
  | cons first _ ih => simp [first.ofJson, ih]

/-! ### Elements that are none -/

theorem scalar_of_not_isScalar {v : Value} (composite : ¬ IsScalar v) : scalar? v = none := by
  cases v with
  | array | object => rfl
  | null | bool | number | string => exact absurd trivial composite

theorem readField_of_composite {field : String} {members : Members} {v : Value}
    (single : countField field members ≤ 1) (mem : (some field, v) ∈ members)
    (composite : ¬ IsScalar v) (position : Nat) :
    (Value.object members).readField field position none scalar? = none := by
  rw [Value.readField, field_of_countField_le_one single mem]
  exact scalar_of_not_isScalar composite

theorem IsUnfit.ofJson {v : Value} (unfit : IsUnfit v) : ofJson? v = none := by
  cases unfit with
  | scalar scalar =>
    cases v with
    | array | object => exact scalar.elim
    | null | bool | number | string => rfl
  | @nested members field v listed mem composite =>
    rw [ofJson?]
    split
    next form =>
      have single := (isRecord_object.mp form).2 field listed
      have unread := readField_of_composite single mem composite
      simp only [List.mem_cons, List.not_mem_nil, or_false] at listed
      rcases listed with rfl | rfl
      · rw [unread]
        rfl
      · rw [unread]
        cases (Value.object members).readField "name" 0 none scalar? <;> rfl
    next => rfl
  | @repeated before between after field v w listed =>
    rw [ofJson?, if_neg]
    intro form
    have single := (isRecord_object.mp form).2 field listed
    have twice : countField field
        (before ++ (some field, v) :: between ++ (some field, w) :: after) =
          countField field before + countField field between + countField field after + 2 := by
      simp [countField, List.countP_append]
      omega
    omega

theorem listOfJson_of_unfit {items : List Value} {v : Value} (mem : v ∈ items)
    (unfit : IsUnfit v) : listOfJson? (.array items) = none := by
  rw [listOfJson?]
  induction items with
  | nil => exact absurd mem List.not_mem_nil
  | cons item items ih =>
    rw [List.mapM_cons]
    rcases List.mem_cons.mp mem with rfl | later
    · rw [unfit.ofJson]
      rfl
    · rw [ih later]
      cases ofJson? item <;> rfl

/-- All elements become parameters, or none does. -/
theorem decode_all_or_nothing (text : List Char) (items : List Value) (parameters : List Parameter)
    (written : IsTextOf text (.array items)) (each : List.Forall₂ Describes items parameters) :
    decode (wrap text) = parameters ∧
      ∀ (before after : List Value) (replaced unfit : Value) (text' : List Char),
        items = before ++ replaced :: after → IsUnfit unfit →
        IsTextOf text' (.array (before ++ unfit :: after)) → decode (wrap text') = [] := by
  constructor
  · rw [decode_wrap, written.ofText, Option.bind_some, listOfJson_of_describes each,
      Option.getD_some]
  · intro before after replaced unfit text' _ bad written'
    have mem : unfit ∈ before ++ unfit :: after := by simp
    rw [decode_wrap, written'.ofText, Option.bind_some, listOfJson_of_unfit mem bad,
      Option.getD_none]

/-! ### A list with escapes -/

/-- A member with its name in escapes and blanks at every place. -/
def escapedMember : Json.WrittenMember where
  front := [' ']
  name := "\"n\\u0061me\"".toList
  back := ['\t']
  valueText := "\r\"\\uD83d\\ude00\\/\"\n".toList
  key := some "name"
  value := .text "😀/"

def plainMember (key valueText : String) (value : Value) : Json.WrittenMember :=
  ⟨[], Json.printString (some key), [], valueText.toList, some key, value⟩

/-- The blanks, the name and the value of a member are what they should be. -/
def IsMember (m : Json.WrittenMember) : Prop :=
  ((∀ c ∈ m.front ++ m.back, Json.isBlank c) ∧ Json.WritesString m.key m.name) ∧
    IsTextOf m.valueText m.value

theorem isMember_plain {key valueText : String} {value : Value}
    (text : IsTextOf valueText.toList value) : IsMember (plainMember key valueText value) :=
  ⟨⟨nofun, Json.writesString_print (some key)⟩, text⟩

theorem isMember_escaped : IsMember escapedMember := by
  have blank : ∀ c ∈ [' '] ++ ['\t'], Json.isBlank c := by simp [Json.isBlank]
  have plain (c : Char) (control : 0x20 ≤ c.toNat) (quote : c ≠ '"') (slash : c ≠ '\\') :
      Json.WritesPiece (.plain c) [c] := .plain control quote slash
  have a : Json.WritesPiece (.unit 'a'.toNat) "\\u0061".toList :=
    .unit (w := 0) (x := 0) (y := 6) (z := 1) (by decide) (by decide) (by decide) (by decide)
  have name := Json.WritesPieces.cons (plain 'n' (by decide) (by decide) (by decide)) <|
    .cons a <| .cons (plain 'm' (by decide) (by decide) (by decide)) <|
    .cons (plain 'e' (by decide) (by decide) (by decide)) .nil
  have high : Json.WritesPiece (.unit 0xD83D) "\\uD83d".toList :=
    .unit (w := 0xD) (x := 8) (y := 3) (z := 0xD) (by decide) (by decide) (by decide) (by decide)
  have low : Json.WritesPiece (.unit 0xDE00) "\\ude00".toList :=
    .unit (w := 0xD) (x := 0xE) (y := 0) (z := 0) (by decide) (by decide) (by decide) (by decide)
  have slash : Json.WritesPiece (.plain '/') "\\/".toList := .short (by decide)
  have compose : Json.Compose [.unit 0xD83D, .unit 0xDE00, .plain '/'] ['😀', '/'] :=
    Json.compose_of_join (by simp) (by decide)
  have literal := Json.WritesString.text (.cons high (.cons low (.cons slash .nil))) compose
  have text : String.ofList ['😀', '/'] = "😀/" := by decide
  rw [text] at literal
  have around : ∀ c ∈ ['\r'] ++ ['\n'], Json.isBlank c := by simp [Json.isBlank]
  exact ⟨⟨blank, .text name (.plain (.unit (.plain (.plain .nil))))⟩,
    .padded around (.string literal)⟩

theorem isTextOf_least : IsTextOf "-9223372036854775808".toList (.int (-2 ^ 63)) := by
  have integer : (Numeral.ofInt (-2 ^ 63)).IsInteger :=
    ⟨fun _ => Json.decimalDigits_lt, Json.isWhole_decimalDigits _, rfl, rfl⟩
  have print : (Numeral.ofInt (-2 ^ 63)).print = "-9223372036854775808".toList := by decide_cbv
  exact .number (print ▸ integer.writes)

theorem isTextOf_fraction :
    IsTextOf "1.50e+09".toList (.number ⟨false, [1], some [5, 0], some 9⟩) := by
  have fraction : Json.WritesFraction (some [5, 0]) ".50".toList := .some (by decide) (by decide)
  have exponent : Json.WritesExponent (some 9) "e+09".toList :=
    @Json.WritesExponent.plus 'e' ['+'] [0, 9] (.inl rfl) (.inr rfl) (by decide) (by decide)
  exact .number (@Json.WritesNumeral.mk false [1] _ _ _ _ (by decide) rfl fraction exponent)

def escapedMembers : List Json.WrittenMember :=
  [escapedMember, plainMember "x" "1.50e+09" (.number ⟨false, [1], some [5, 0], some 9⟩),
    plainMember "value" "-9223372036854775808" (.int (-2 ^ 63))]

def repeatedMembers : List Json.WrittenMember :=
  [plainMember "value" "true" (.bool true), plainMember "x" "null" .null,
    plainMember "value" "true" (.bool true)]

/-- An object with these members, in front of one without any. -/
def pairText (members : List Json.WrittenMember) : List Char :=
  '[' :: Json.joinWith [','] ['\x7b' :: Json.joinWith [','] (members.map (·.text)) ++ ['\x7d'],
    "\x7b\n\x7d".toList] ++ [']']

theorem isTextOf_pair {members : List Json.WrittenMember} (each : ∀ m ∈ members, IsMember m) :
    IsTextOf (pairText members) (.array [.object (members.map (·.member)), .object []]) := by
  have first : IsTextOf ('\x7b' :: Json.joinWith [','] (members.map (·.text)) ++ ['\x7d'])
      (.object (members.map (·.member))) :=
    .object (fun m mem => (each m mem).1) fun m mem => (each m mem).2
  have second : IsTextOf "\x7b\n\x7d".toList (.object []) :=
    @IsTextOf.emptyObject ['\n'] (by simp [Json.isBlank])
  refine @IsTextOf.array [(_, .object (members.map (·.member))), (_, .object [])] ?_
  simp only [List.forall_mem_cons]
  exact ⟨first, second, List.forall_mem_nil _⟩

/-- Names in escapes, a value at the end of its range, members of other names. If the first element
gives its value twice, nothing is left of the list. -/
theorem decode_all_or_nothing_escapes :
    String.ofList (pairText escapedMembers) =
      "[\x7b \"n\\u0061me\"\t:\r\"\\uD83d\\ude00\\/\"\n,\"x\":1.50e+09," ++
        "\"value\":-9223372036854775808\x7d,\x7b\n\x7d]" ∧
    String.ofList (pairText repeatedMembers) =
      "[\x7b\"value\":true,\"x\":null,\"value\":true\x7d,\x7b\n\x7d]" ∧
    decode (wrap (pairText escapedMembers)) =
      [⟨some "😀/", some "-9223372036854775808"⟩, ⟨none, none⟩] ∧
    decode (wrap (pairText repeatedMembers)) = [] := by
  have escaped_written : ∀ m ∈ escapedMembers, IsMember m := by
    simp only [escapedMembers, List.forall_mem_cons]
    exact ⟨isMember_escaped, isMember_plain isTextOf_fraction, isMember_plain isTextOf_least, nofun⟩
  have repeated_written : ∀ m ∈ repeatedMembers, IsMember m := by
    simp only [repeatedMembers, List.forall_mem_cons]
    exact ⟨isMember_plain .truth, isMember_plain .null, isMember_plain .truth, nofun⟩
  have first : Describes (.object (escapedMembers.map (·.member)))
      ⟨some "😀/", some "-9223372036854775808"⟩ := by
    refine .object ?_ ?_ ?_
    · simp [escapedMembers, escapedMember, plainMember, Json.WrittenMember.member]
    · exact @FieldGives.once "name" [] _ (.text "😀/") _
        (by simp [plainMember, Json.WrittenMember.member]) (.text _)
    · exact @FieldGives.once "value" [_, _] [] (.int (-2 ^ 63)) _
        (by simp [escapedMember, plainMember, Json.WrittenMember.member])
        (.integer (by decide) (by decide))
  have second : Describes (.object []) ⟨none, none⟩ := .object nofun (.missing nofun) (.missing nofun)
  have unfit : IsUnfit (.object (repeatedMembers.map (·.member))) :=
    @IsUnfit.repeated [] [_] [] "value" (.bool true) (.bool true) (by simp)
  have read := decode_all_or_nothing _ _ _ (isTextOf_pair escaped_written)
    (.cons first (.cons second .nil))
  exact ⟨by decide, by decide, read.1,
    read.2 [] _ _ _ _ rfl unfit (isTextOf_pair repeated_written)⟩

end VisibilityRules.Payload
