import VisibilityRules.Command.Report
import VisibilityRules.Proofs.Document

set_option autoImplicit false

/-!
Reports in JSON, as another program reads them: the answer on the output is parsed again, and its
members are taken by their names.
-/
namespace VisibilityRules

namespace Json.Value

def member? (key : String) : Value → Option Value
  | .object members => (members.find? fun m => m.1 == some key).map (·.2)
  | _ => none

def nat? : Value → Option Nat
  | .number n => if n = .ofNat n.wholeValue then some n.wholeValue else none
  | _ => none

def nullOr? {α : Type} (read : Value → Option α) : Value → Option (Option α)
  | .null => some none
  | v => (read v).map some

def items? : Value → Option (List Value)
  | .array items => some items
  | _ => none

@[simp] theorem member_record (key : String) (members : List (String × Value)) :
    (record members).member? key = (members.find? fun m => m.1 == key).map (·.2) := by
  rw [record, member?, List.find?_map, Option.map_map]
  rfl

@[simp] theorem nat_nat (n : Nat) : (nat n).nat? = some n := by
  simp [nat, nat?, Numeral.wholeValue_ofNat]

@[simp] theorem nullOr_orNull_bool (b : Option Bool) : (orNull .bool b).nullOr? bool? = some b := by
  cases b <;> rfl

end Json.Value

namespace Command

open Json (Value isWritten_record isWritten_optional)

/-! ### Endings -/

theorem ending_of_ok {answer : Answer} {code : ExitCode} (verdict : answer.verdict = .ok code)
    (mode : Mode) :
    (answer.ending mode).code = code.toNat ∧ (answer.ending mode).output = answer.output := by
  rw [Answer.ending, verdict]
  exact ⟨rfl, rfl⟩

theorem code_of_error {answer : Answer} {failure : Failure}
    (verdict : answer.verdict = .error failure) (mode : Mode) :
    (answer.ending mode).code = failure.code.toNat := by
  rw [Answer.ending, verdict]
  cases mode <;> rfl

theorem verdict_ofMode (mode : Mode) (text : String) (result : Value) :
    (Answer.ofMode mode text result).verdict = .ok .success := by
  cases mode <;> rfl

/-! ### What an answer in JSON reports -/

def result? (output : String) : Option Value := do
  (← Value.ofText? output.toList).member? "result"

/-- An occurrence as `scan` reports it; what is literal text has no decision. -/
structure Entry where
  start : Nat
  stop : Nat
  escaped : Bool
  filtered : Option Bool
  deriving DecidableEq, Repr

def Entry.span (entry : Entry) : Shortcode.Span := ⟨entry.start, entry.stop⟩

def Entry.ofJson? (v : Value) : Option Entry := do
  let start ← (← v.member? "start").nat?
  let stop ← (← v.member? "end").nat?
  let escaped ← (← v.member? "escaped").bool?
  some ⟨start, stop, escaped, ← (← v.member? "filtered").nullOr? Value.bool?⟩

def scanned? (output : String) : Option (List Entry) := do
  (← (← (← result? output).member? "occurrences").items?).mapM Entry.ofJson?

def decided? (output : String) : Option Bool := do
  (← (← result? output).member? "filtered").bool?

def Finding.entry (f : Finding) : Entry :=
  ⟨f.occurrence.start, f.occurrence.stop, f.occurrence.isEscaped, f.hidden⟩

theorem ofJson_toJson (f : Finding) : Entry.ofJson? f.toJson = some f.entry := by
  have start : f.toJson.member? "start" = some (.nat f.occurrence.start) := by
    simp [Finding.toJson]
  have stop : f.toJson.member? "end" = some (.nat f.occurrence.stop) := by
    simp [Finding.toJson]
  have escaped : f.toJson.member? "escaped" = some (.bool f.occurrence.isEscaped) := by
    simp [Finding.toJson]
  have filtered : f.toJson.member? "filtered" = some (.orNull .bool f.hidden) := by
    simp [Finding.toJson]
  simp only [Entry.ofJson?, start, stop, escaped, filtered, Option.bind_eq_bind, Option.bind_some,
    Json.Value.nat_nat, Json.Value.nullOr_orNull_bool, Value.bool?, Finding.entry]

theorem isWritten_of_mem_optionalMember {key : String} {value : Option String}
    {member : String × Value} (mem : member ∈ optionalMember key value) : member.2.IsWritten := by
  obtain ⟨text, _, rfl⟩ := List.mem_map.mp mem
  exact .string (some text)

theorem isWritten_nat (n : Nat) : (Value.nat n).IsWritten :=
  .number (Json.Numeral.isInteger_ofNat n)

theorem isWritten_toJson (f : Finding) : f.toJson.IsWritten := by
  have decision : (Value.orNull .bool f.hidden).IsWritten := by
    cases f.hidden with
    | none => exact .null
    | some hidden => exact .bool hidden
  apply isWritten_record
  simp only [List.forall_mem_append, List.forall_mem_cons]
  exact ⟨⟨isWritten_nat _, isWritten_nat _, .bool _, .bool _, Settings.isWritten_texts _, decision,
    nofun⟩, fun _ => isWritten_of_mem_optionalMember⟩

theorem isWritten_scanned (element : String) (found : List Finding) :
    (Value.record [("tag", .text element),
      ("occurrences", .array (found.map Finding.toJson))]).IsWritten := by
  have occurrences : (Value.array (found.map Finding.toJson)).IsWritten := by
    refine .array fun v mem => ?_
    obtain ⟨f, _, rfl⟩ := List.mem_map.mp mem
    exact isWritten_toJson f
  apply isWritten_record
  simp only [List.forall_mem_cons]
  exact ⟨.string (some element), occurrences, nofun⟩

theorem isWritten_checkResult (element : Option String) (attributes : Attributes) (hidden : Bool) :
    (checkResult element attributes hidden).IsWritten := by
  apply isWritten_record
  simp only [List.forall_mem_append, List.forall_mem_cons]
  exact ⟨⟨fun _ => isWritten_of_mem_optionalMember, .string _, .bool _, .bool _, nofun⟩,
    fun _ => isWritten_of_mem_optionalMember⟩

theorem result_ofMode {result : Value} (written : result.IsWritten) (text : String) :
    result? (Answer.ofMode .json text result).output = some result := by
  have response : (Value.record
      [("jsonrpc", .text "2.0"), ("result", result), ("id", .null)]).IsWritten := by
    apply isWritten_record
    simp only [List.forall_mem_cons]
    exact ⟨.string _, written, .null, nofun⟩
  have newline : ∀ c ∈ ['\n'], Json.isBlank c := List.forall_mem_singleton.mpr rfl
  have printed : (Answer.ofMode .json text result).output.toList =
      Json.print (.record [("jsonrpc", .text "2.0"), ("result", result), ("id", .null)]) ++
        ['\n'] := by
    simp [Answer.ofMode, Answer.ok, Answer.line, Value.render]
  rw [result?, printed, Json.ofText_print_append response newline]
  simp

theorem scanned_report (text element : String) (found : List Finding) :
    scanned? (Answer.ofMode .json text (.record [("tag", .text element),
      ("occurrences", .array (found.map Finding.toJson))])).output =
      some (found.map Finding.entry) := by
  have entries := Json.mapM_map ofJson_toJson found
  rw [scanned?, result_ofMode (isWritten_scanned element found)]
  simp [Value.items?, entries]

theorem decided_report (text : String) (element : Option String) (attributes : Attributes)
    (hidden : Bool) :
    decided? (Answer.ofMode .json text (checkResult element attributes hidden)).output =
      some hidden := by
  have decision : (checkResult element attributes hidden).member? "filtered" =
      some (.bool hidden) := by
    cases element <;> simp [checkResult, optionalMember]
  rw [decided?, result_ofMode (isWritten_checkResult element attributes hidden)]
  simp [decision, Value.bool?]

end Command

end VisibilityRules
