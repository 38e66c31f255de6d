import VisibilityRules.Proofs.Encodings
import VisibilityRules.Proofs.JsonText
import VisibilityRules.Rule.Payload

set_option autoImplicit false

/-!
Parameter lists read back from their payload. Blanks may be put into a payload anywhere, and its
padding may be dropped, shortened or made longer.
-/
namespace VisibilityRules.Payload

open Json (Value)

/-- A text with blanks put in at any places. -/
inductive Spaced : List Char → List Char → Prop
  | nil : Spaced [] []
  | keep {text spaced : List Char} (c : Char) :
      Spaced text spaced → Spaced (c :: text) (c :: spaced)
  | blank {text spaced : List Char} {c : Char} :
      Text.isBlank c → Spaced text spaced → Spaced text (c :: spaced)

def isVisible (c : Char) : Bool := !Text.isBlank c

theorem Spaced.filter {text spaced : List Char} (put : Spaced text spaced)
    (visible : ∀ c ∈ text, isVisible c) : spaced.filter isVisible = text := by
  induction put with
  | nil => rfl
  | keep c put ih =>
    have visible := List.forall_mem_cons.mp visible
    rw [List.filter_cons_of_pos visible.1, ih visible.2]
  | blank blank put ih =>
    rw [List.filter_cons_of_neg (by simp [isVisible, blank]), ih visible]

theorem spaced_filter (spaced : List Char) : Spaced (spaced.filter isVisible) spaced := by
  induction spaced with
  | nil => exact .nil
  | cons c spaced ih =>
    by_cases blank : Text.isBlank c
    next =>
      rw [List.filter_cons_of_neg (by simp [isVisible, blank])]
      exact .blank blank ih
    next =>
      rw [List.filter_cons_of_pos (by simp [isVisible, blank])]
      exact .keep c ih

theorem Spaced.refl (text : List Char) : Spaced text text := by
  induction text with
  | nil => exact .nil
  | cons c text ih => exact .keep c ih

theorem isWritten_toJson (p : Parameter) : (toJson p).IsWritten := by
  apply Json.isWritten_record
  simp only [List.forall_mem_cons]
  exact ⟨Json.isWritten_optional p.name, Json.isWritten_optional p.value, nofun⟩

theorem scalar_optional (text : Option String) : scalar? (.orNull .text text) = some text := by
  cases text <;> rfl

theorem ofJson_toJson (p : Parameter) : ofJson? (toJson p) = some p := by
  have form : (toJson p).isRecord ["name", "value"] = true := by
    simp [toJson, Value.record, Value.isRecord]
  have name : (toJson p).field? "name" 0 = some (.orNull .text p.name) := by
    simp [toJson, Value.record, Value.field?]
  have value : (toJson p).field? "value" 1 = some (.orNull .text p.value) := by
    simp [toJson, Value.record, Value.field?]
  simp only [ofJson?, form, if_true, Value.readField, name, value, scalar_optional,
    Option.bind_eq_bind, Option.bind_some]

theorem listOfJson_map_toJson (parameters : List Parameter) :
    listOfJson? (.array (parameters.map toJson)) = some parameters := by
  rw [listOfJson?, Json.mapM_map ofJson_toJson, List.map_id']

/-! ### Letters and padding -/

def letters (bytes : List UInt8) : List Char := (Base64.sextets bytes).map Base64.letter

theorem isVisible_letter {n : Nat} (small : n < 64) : isVisible (Base64.letter n) := by
  revert n
  decide

theorem isVisible_of_mem_letters {bytes : List UInt8} {c : Char} (mem : c ∈ letters bytes) :
    isVisible c := by
  obtain ⟨n, listed, rfl⟩ := List.mem_map.mp mem
  exact isVisible_letter (Base64.sextets_lt listed)

theorem padding_not_mem_letters (bytes : List UInt8) : '=' ∉ letters bytes := by
  intro mem
  obtain ⟨n, listed, same⟩ := List.mem_map.mp mem
  exact Base64.letter_ne_padding (Base64.sextets_lt listed) same

/-- Neither blanks nor the length of the padding change the bytes. -/
theorem bytes_of_spaced {bytes : List UInt8} {padding : Nat} {payload : List Char}
    (put : Spaced (letters bytes ++ List.replicate padding '=') payload) :
    bytes? payload = some bytes := by
  have visible : ∀ c ∈ letters bytes ++ List.replicate padding '=', isVisible c := by
    intro c mem
    cases List.mem_append.mp mem with
    | inl letter => exact isVisible_of_mem_letters letter
    | inr behind =>
      rw [List.eq_of_mem_replicate behind]
      decide
  have small : ∀ n ∈ Base64.sextets bytes, n < 64 := fun n => Base64.sextets_lt
  have filtered : payload.filter (fun c => !Text.isBlank c) =
      letters bytes ++ List.replicate padding '=' := put.filter visible
  simp only [bytes?, filtered]
  rw [Base64.decodePadded_or, Base64.dropPadding_append (padding_not_mem_letters bytes), letters,
    Base64.decode_letters small, Base64.ofSextets_sextets]

theorem bytes_encode (bytes : List UInt8) : bytes? (Base64.encode bytes) = some bytes := by
  obtain ⟨count, padded⟩ := Base64.encode_eq bytes
  rw [padded]
  exact @bytes_of_spaced bytes count _ (.refl _)

/-! ### Lists -/

/-- The payload that holds a text. -/
def wrap (text : List Char) : String :=
  String.ofList (Base64.encode (Text.Utf8.encode (Percent.encode (Text.Utf8.encode text))))

theorem decode_wrap (text : List Char) :
    decode (wrap text) = ((Value.ofText? text).bind listOfJson?).getD [] := by
  simp only [decode, wrap, String.toList_ofList, decode?, bytes_encode, Option.bind_eq_bind,
    Option.bind_some, Text.Utf8.decodeLossy_encode, Percent.decodeText_encode]

/-- The text that is put into letters. -/
def escaped (parameters : List Parameter) : List Char :=
  Percent.encode (Text.Utf8.encode (Json.print (.array (parameters.map toJson))))

theorem dropPadding_encode (p : Parameter) (parameters : List Parameter) :
    Base64.dropPadding (encode (p :: parameters)).toList =
      letters (Text.Utf8.encode (escaped (p :: parameters))) := by
  have written : encode (p :: parameters) =
      String.ofList (Base64.encode (Text.Utf8.encode (escaped (p :: parameters)))) := rfl
  obtain ⟨count, padded⟩ := Base64.encode_eq (Text.Utf8.encode (escaped (p :: parameters)))
  rw [written, String.toList_ofList, padded]
  exact Base64.dropPadding_append (padding_not_mem_letters _) count

theorem decode_escaped (parameters : List Parameter) :
    (Percent.decodeText? (escaped parameters)).bind
      (fun text => (Value.ofText? text).bind listOfJson?) = some parameters := by
  have written : (Value.array (parameters.map toJson)).IsWritten := by
    refine .array fun v mem => ?_
    obtain ⟨p, _, rfl⟩ := List.mem_map.mp mem
    exact isWritten_toJson p
  rw [escaped, Percent.decodeText_encode, Option.bind_some, Json.ofText_print written,
    Option.bind_some, listOfJson_map_toJson]

/-- No letters at all are no JSON text. -/
theorem decode_of_no_bytes {payload : String} (bytes : bytes? payload.toList = some []) :
    decode payload = [] := by
  have text : Text.Utf8.decodeLossy [] = [] := Text.Utf8.decodeLossy_encode []
  have unescaped : Percent.decodeText? [] = some [] := Percent.decodeText_encode []
  have nothing : Value.ofText? [] = none := by
    rw [Value.ofText?, Json.lex?]
    rfl
  rw [decode, decode?, bytes]
  simp [text, unescaped, nothing]

theorem decode_encode (parameters : List Parameter) : decode (encode parameters) = parameters := by
  cases parameters with
  | nil => exact decode_of_no_bytes (bytes_encode [])
  | cons p parameters =>
    have written : encode (p :: parameters) =
        String.ofList (Base64.encode (Text.Utf8.encode (escaped (p :: parameters)))) := rfl
    rw [written, decode, decode?, String.toList_ofList, bytes_encode]
    simp only [Option.bind_eq_bind, Option.bind_some, Text.Utf8.decodeLossy_encode, decode_escaped,
      Option.getD_some]

theorem isVisible_of_mem_encode {parameters : List Parameter} {c : Char}
    (mem : c ∈ (encode parameters).toList) : isVisible c := by
  cases parameters with
  | nil => exact absurd mem List.not_mem_nil
  | cons p parameters =>
    obtain ⟨count, padded⟩ := Base64.encode_eq (Text.Utf8.encode (escaped (p :: parameters)))
    have written : (encode (p :: parameters)).toList =
        Base64.encode (Text.Utf8.encode (escaped (p :: parameters))) := String.toList_ofList
    rw [written, padded, List.mem_append] at mem
    rcases mem with letter | padding
    · exact isVisible_of_mem_letters letter
    · rw [List.eq_of_mem_replicate padding]
      decide

/-- Something is written for a list that is not empty. -/
theorem encode_ne_empty {parameters : List Parameter} (nonempty : parameters ≠ []) :
    encode parameters ≠ "" := by
  intro empty
  have read := decode_encode parameters
  rw [empty] at read
  exact nonempty (read.symm.trans (decode_encode []))

/-- A payload with blanks put in anywhere and with any padding stands for the list it encodes. -/
theorem decode_of_spaced (parameters : List Parameter) (padding : Nat) (payload : String)
    (put : Spaced (Base64.dropPadding (encode parameters).toList ++ List.replicate padding '=')
      payload.toList) : decode payload = parameters := by
  cases parameters with
  | nil => exact decode_of_no_bytes (@bytes_of_spaced [] padding payload.toList put)
  | cons p parameters =>
    rw [dropPadding_encode] at put
    rw [decode, decode?, bytes_of_spaced put]
    simp only [Option.bind_eq_bind, Option.bind_some, Text.Utf8.decodeLossy_encode, decode_escaped,
      Option.getD_some]

theorem decode_of_spaced_blank_inside :
    let parameters : List Parameter := [⟨some "é\"", none⟩]
    let payload :=
      " JTVCJTdCJTIybmFtZSUyMiUzQSUyMiVDMyVBOSU1QyU\u2003\n" ++
        "yMiUyMiUyQyUyMnZhbHVlJTIyJTNBbnVsbCU3RCU1RA= =="
    Spaced (Base64.dropPadding (encode parameters).toList ++ List.replicate 3 '=')
      payload.toList ∧ decode payload = parameters := by
  intro parameters payload
  have put : Spaced (Base64.dropPadding (encode parameters).toList ++ List.replicate 3 '=')
      payload.toList := by
    have filtered : payload.toList.filter isVisible =
        Base64.dropPadding (encode parameters).toList ++ List.replicate 3 '=' := by decide +kernel
    rw [← filtered]
    exact spaced_filter payload.toList
  exact ⟨put, decode_of_spaced parameters 3 payload put⟩

end VisibilityRules.Payload
