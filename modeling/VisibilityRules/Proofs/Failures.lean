import VisibilityRules.Command.Run
import VisibilityRules.Proofs.Effects
import VisibilityRules.Proofs.Reports

set_option autoImplicit false

/-!
Failures in JSON mode. The error of a command is one object on one line, whatever its message
holds, and it is all that a command prints unless the check of the settings has listed problems.
-/
namespace VisibilityRules

namespace Json

/-! ### One line -/

/-- No character of the text is a control character. -/
def Printable (text : List Char) : Prop := ∀ c ∈ text, 0x20 ≤ c.toNat

theorem Printable.append {text text' : List Char} (first : Printable text)
    (later : Printable text') : Printable (text ++ text') :=
  List.forall_mem_append.mpr ⟨first, later⟩

theorem Printable.newline_not_mem {text : List Char} (printable : Printable text) :
    '\n' ∉ text :=
  fun mem => absurd (printable '\n' mem) (by decide)

theorem printable_hexDigit {n : Nat} (small : n < 16) : 0x20 ≤ (hexDigit n).toNat := by
  revert n
  decide

theorem printable_escapeChar (c : Char) : Printable (escapeChar c) := by
  unfold escapeChar
  split
  case h_8 =>
    by_cases control : c.toNat < 0x20
    next =>
      rw [if_pos control]
      have high : 0x20 ≤ (hexDigit (c.toNat / 16)).toNat := printable_hexDigit (by omega)
      have low : 0x20 ≤ (hexDigit (c.toNat % 16)).toNat := printable_hexDigit (by omega)
      have marks : Printable ['\\', 'u', '0', '0'] := by simp [Printable]
      exact marks.append (List.forall_mem_cons.mpr ⟨high, List.forall_mem_singleton.mpr low⟩)
    next =>
      rw [if_neg control]
      exact List.forall_mem_singleton.mpr (Nat.le_of_not_lt control)
  all_goals simp [Printable]

theorem printable_printString (s : Option String) : Printable (printString s) := by
  have quote : Printable ['"'] := by simp [Printable]
  cases s with
  | none => simp [Printable, printString]
  | some s =>
    have inner : Printable (s.toList.flatMap escapeChar) := by
      intro c mem
      obtain ⟨c', _, escaped⟩ := List.mem_flatMap.mp mem
      exact printable_escapeChar c' c escaped
    exact (quote.append inner).append quote

theorem printable_printDigits {digits : List Nat} (small : ∀ d ∈ digits, d < 10) :
    Printable (printDigits digits) := by
  have digit : ∀ d < 10, 0x20 ≤ (Char.ofNat (0x30 + d)).toNat := by decide
  intro c mem
  obtain ⟨d, listed, rfl⟩ := List.mem_map.mp mem
  exact digit d (small d listed)

theorem Numeral.IsInteger.printable {n : Numeral} (integer : n.IsInteger) :
    Printable n.print := by
  have sign : Printable (if n.negative then ['-'] else []) := by
    cases n.negative <;> simp [Printable]
  rw [integer.print_eq]
  exact sign.append (printable_printDigits integer.whole_lt)

theorem printable_joinWith {texts : List (List Char)}
    (each : ∀ text ∈ texts, Printable text) : Printable (joinWith [','] texts) := by
  have comma : Printable [','] := by simp [Printable]
  induction texts using joinWith.induct with
  | case1 => exact nofun
  | case2 text => exact each text (List.mem_singleton_self text)
  | case3 text rest more ih =>
    obtain ⟨first, later⟩ := List.forall_mem_cons.mp each
    rw [joinWith.eq_3 _ _ _ more]
    exact (first.append comma).append (ih later)

theorem printable_enclosed {first last : Char} {texts : List (List Char)}
    (marks : Printable [first, last]) (each : ∀ text ∈ texts, Printable text) :
    Printable (first :: joinWith [','] texts ++ [last]) := by
  obtain ⟨opening, closing⟩ := List.forall_mem_cons.mp marks
  have front : Printable (first :: joinWith [','] texts) :=
    List.forall_mem_cons.mpr ⟨opening, printable_joinWith each⟩
  exact front.append closing

/-- The text of a value on one line stays on that line, also when its strings hold line breaks. -/
theorem Value.IsWritten.printable {v : Value} (written : v.IsWritten) : Printable (print v) := by
  induction written with
  | null => simp [Printable, print, printAtom]
  | bool b => cases b <;> simp [Printable, print, printAtom]
  | number integer => exact integer.printable
  | string text => exact printable_printString text
  | array _ ih =>
    rw [print, printItems_eq]
    exact printable_enclosed (by simp [Printable]) (List.forall_mem_map.mpr ih)
  | @object members _ ih =>
    have each : ∀ member ∈ members,
        Printable (printString member.1 ++ ':' :: print member.2) := fun member mem =>
      (printable_printString member.1).append
        (List.forall_mem_cons.mpr ⟨by decide, ih member mem⟩)
    rw [print, printMembers_eq]
    exact printable_enclosed (by simp [Printable]) (List.forall_mem_map.mpr each)

theorem isWritten_int (n : Int) : (Value.int n).IsWritten :=
  .number ⟨fun _ => decimalDigits_lt, isWhole_decimalDigits n.natAbs, rfl, rfl⟩

end Json

namespace Command

open Json (Value isWritten_record isWritten_int)

variable {w : World} {i : Invocation}

/-! ### Error lines -/

/-- The output is one line, and the line is the error object of this exit code and message. -/
def IsErrorLine (output : String) (code : Nat) (message : String) : Prop :=
  ∃ text : List Char, output.toList = text ++ ['\n'] ∧ '\n' ∉ text ∧
    Value.ofText? text = some (.record [("jsonrpc", .text "2.0"),
      ("error", .record [("code", .int (-32000 - code)), ("message", .text message)]),
      ("id", .null)])

theorem isWritten_response (failure : Failure) : failure.response.IsWritten := by
  have error : (Value.record [("code", .int (-32000 - failure.code.toNat)),
      ("message", .text failure.message)]).IsWritten := by
    apply isWritten_record
    simp only [List.forall_mem_cons]
    exact ⟨isWritten_int _, .string _, nofun⟩
  apply isWritten_record
  simp only [List.forall_mem_cons]
  exact ⟨.string _, error, .null, nofun⟩

theorem isErrorLine_response (failure : Failure) :
    IsErrorLine (Answer.line failure.response.render) failure.code.toNat failure.message := by
  refine ⟨Json.print failure.response, ?_, (isWritten_response failure).printable.newline_not_mem,
    Json.ofText_print (isWritten_response failure)⟩
  rw [Answer.line, String.toList_append, Value.render, String.toList_ofList]
  rfl

/-- An error line with more lines in front of it is not one itself. -/
theorem not_isErrorLine_append {front last message message' : String} {code code' : Nat}
    (more : '\n' ∈ front.toList) (line : IsErrorLine last code message) :
    ¬ IsErrorLine (front ++ last) code' message' := by
  rintro ⟨text, whole, single, _⟩
  obtain ⟨text', ends, _⟩ := line
  rw [String.toList_append, ends, ← List.append_assoc] at whole
  rw [← List.append_cancel_right whole] at single
  exact single (List.mem_append_left text' more)

/-! ### What a command prints when it fails -/

/-- The command passes, or it fails with this text on its output. -/
inductive Answer.FailsWith (output : String) : Answer → Prop
  | success {answer : Answer} : answer.verdict = .ok .success → FailsWith output answer
  | hidden {answer : Answer} : answer.verdict = .ok .hidden → FailsWith output answer
  | failure {answer : Answer} {failure : Failure} : answer.verdict = .error failure →
      answer.output = output → FailsWith output answer

namespace Answer.FailsWith

variable {output : String} {answer : Answer}

theorem withNotes (fails : answer.FailsWith output) (notes : String) :
    Answer.FailsWith output { answer with notes := notes } := by
  cases fails with
  | success passes => exact .success passes
  | hidden passes => exact .hidden passes
  | failure verdict printed => exact .failure verdict printed

theorem fail (f : Failure) : (Answer.fail f).FailsWith "" := .failure rfl rfl

theorem ofMode (mode : Mode) (text : String) (result : Value) :
    (Answer.ofMode mode text result).FailsWith output :=
  .success (verdict_ofMode mode text result)

theorem bind {α : Type} {x : Except Failure α} {f : α → Except Failure Answer}
    (later : ∀ a, (answerOf (f a)).FailsWith "") : (answerOf (x >>= f)).FailsWith "" := by
  cases x with
  | error f => exact fail f
  | ok a => exact later a

theorem check (w : World) (mode : Mode) (asked : Option String) (subject : Subject)
    (exitCode : Bool) (request : RequestFlags) :
    (answerOf (Command.check w mode asked subject exitCode request)).FailsWith "" := by
  refine bind fun (_, attributes) => bind fun _ => bind fun (policy, visitor) => ?_
  cases told : policy.hides attributes visitor && exitCode with
  | true => exact .hidden (by simp only [answerOf, told, if_true])
  | false => exact .success (by simp only [answerOf, told, Bool.false_eq_true, if_false])

theorem scan (w : World) (mode : Mode) (asked : Option String) (element file : String)
    (request : RequestFlags) :
    (answerOf (Command.scan w mode asked element file request)).FailsWith "" :=
  bind fun _ => bind fun _ => bind fun _ => bind fun _ => ofMode ..

theorem render (w : World) (mode : Mode) (asked : Option String)
    (element attributes file : String) (request : RequestFlags) :
    (answerOf (Command.render w mode asked element attributes file request)).FailsWith "" := by
  refine bind fun _ => bind fun _ => bind fun _ => ?_
  by_cases json : mode = .json
  next => simp only [if_pos json]; exact ofMode ..
  next => simp only [if_neg json]; exact .success rfl

theorem stripInPlace {plan : StripPlan} {mode : Mode} {file : String} {tree : Tree}
    (done : plan.stripInPlace w mode file = .ok (answer, tree)) : answer.FailsWith output := by
  obtain ⟨changed, rfl, _⟩ := StripPlan.fileAt_of_stripInPlace done
  exact ofMode ..

theorem strip (w : World) (mode : Mode) (asked : Option String) (file : String)
    (elements : List String) (inPlace : Bool) (request : RequestFlags) :
    (Command.strip w mode asked file elements inPlace request).1.FailsWith "" := by
  unfold Command.strip
  split
  next f _ => exact fail f
  next plan _ =>
    cases inPlace with
    | false => exact withNotes (bind fun _ => .success rfl) (plan.warning mode)
    | true =>
      cases outcome : plan.stripInPlace w mode file with
      | error f => simp only [if_true]; exact withNotes (fail f) (plan.warning mode)
      | ok result => exact withNotes (stripInPlace outcome) (plan.warning mode)

theorem saveSettings (w : World) (mode : Mode) (asked : Option String) (settings : Settings)
    (done : String) : (Command.saveSettings w mode asked settings done).1.FailsWith "" := by
  unfold Command.saveSettings
  split
  next => exact .success rfl
  next => exact fail _

theorem createSettings (w : World) (mode : Mode) (asked : Option String)
    (elements : List String) (force : Bool) :
    (Command.createSettings w mode asked elements force).1.FailsWith "" := by
  unfold Command.createSettings
  split
  next => exact fail _
  next => exact saveSettings ..

theorem setSetting (w : World) (mode : Mode) (asked : Option String) (key value : String) :
    (Command.setSetting w mode asked key value).1.FailsWith "" := by
  unfold Command.setSetting
  split
  next => exact fail _
  next => exact saveSettings ..

end Answer.FailsWith

/-- The problems that a check of the settings finds, if the command is one. -/
def problemsFound (w : World) (i : Invocation) : List String :=
  match i.action with
  | .settings .verify =>
    match Settings.verify w.tree (w.environment.resolve i.settingsPath) with
    | .ok problems => problems
    | .error _ => []
  | _ => []

def listing (path : String) : List String → String
  | [] => ""
  | problems =>
    Answer.lines (("✗ Configuration has " ++ toString problems.length ++ " error(s): " ++ path) ::
      "" :: problems.map ("  - " ++ ·))

theorem newline_mem_listing (path : String) {problems : List String} (found : problems ≠ []) :
    '\n' ∈ (listing path problems).toList := by
  cases problems with
  | nil => exact absurd rfl found
  | cons problem problems => simp [listing, Answer.lines, Answer.line, String.join_cons]

theorem verify_failsWith (action : i.action = .settings .verify) :
    (verify w i.settingsPath).FailsWith
      (listing (w.environment.resolve i.settingsPath) (problemsFound w i)) := by
  simp only [problemsFound, action, verify]
  cases Settings.verify w.tree (w.environment.resolve i.settingsPath) with
  | error e => exact .fail _
  | ok problems =>
    cases problems with
    | nil => exact .success rfl
    | cons problem problems => exact .failure rfl rfl

theorem runAction_failsWith (w : World) (mode : Mode) (i : Invocation) :
    (runAction w mode i.settingsPath i.action).1.FailsWith
      (listing (w.environment.resolve i.settingsPath) (problemsFound w i)) := by
  by_cases verifies : i.action = .settings .verify
  next =>
    rw [verifies]
    exact verify_failsWith verifies
  have nothing : problemsFound w i = [] := by
    unfold problemsFound
    split
    next action => exact absurd action verifies
    next => rfl
  rw [nothing]
  cases action : i.action with
  | check subject exitCode request => exact .check ..
  | scan element file request => exact .scan ..
  | strip file elements inPlace request => exact .strip ..
  | render element attributes file request => exact .render ..
  | encodeParameters pairs => exact .ofMode ..
  | decodeParameters payload => exact .ofMode ..
  | devices term => exact .ofMode ..
  | completions shell => exact .success rfl
  | settings subcommand =>
    cases subcommand with
    | display => exact .bind fun _ => .success rfl
    | path => exact .success rfl
    | create elements force => exact .createSettings ..
    | set key value => exact .setSetting ..
    | verify => exact absurd action verifies

/-- A command that fails in JSON mode ends its output with the error object on a line of its own.
That line is all there is, unless the command is a check of the settings that finds problems: it
lists them in front of the error. -/
theorem failure_isErrorLine_iff (w : World) (i : Invocation)
    (json : i.mode w.onTerminal = .json) (fails : (run w i).1.code ≠ 0)
    (visible : (run w i).1.code ≠ 5) :
    ∃ (failure : Failure) (line : String),
      (runAction w .json i.settingsPath i.action).1.verdict = .error failure ∧
      (run w i).1.code = failure.code.toNat ∧
      (run w i).1.output =
        listing (w.environment.resolve i.settingsPath) (problemsFound w i) ++ line ∧
      IsErrorLine line (run w i).1.code failure.message ∧
      (IsErrorLine (run w i).1.output (run w i).1.code failure.message ↔
        problemsFound w i = []) := by
  have ending : (run w i).1 = (runAction w .json i.settingsPath i.action).1.ending .json := by
    rw [run, json]
  rw [ending] at fails visible ⊢
  cases runAction_failsWith w .json i with
  | success passes => exact absurd (ending_of_ok passes .json).1 fails
  | hidden passes => exact absurd (ending_of_ok passes .json).1 visible
  | @failure failure verdict printed =>
    have line := isErrorLine_response failure
    have output : ((runAction w .json i.settingsPath i.action).1.ending .json).output =
        listing (w.environment.resolve i.settingsPath) (problemsFound w i) ++
          Answer.line failure.response.render := by
      rw [Answer.ending, verdict, printed]
      rfl
    rw [code_of_error verdict, output]
    refine ⟨failure, _, verdict, rfl, rfl, line, ?_⟩
    constructor
    · intro single
      by_contra found
      exact not_isErrorLine_append (newline_mem_listing _ found) line single
    · intro nothing
      rw [nothing, listing, String.empty_append]
      exact line

theorem failure_isErrorLine_iff_line_break :
    let w : World := ⟨⟨∅, []⟩, ⟨"/home", "", none⟩, [], ⟨0, 0⟩, false⟩
    let request : RequestFlags := ⟨none, [], [], none, none, none, none, []⟩
    let i : Invocation := ⟨none, false, false, false, .scan "a\n" "-" request⟩
    IsErrorLine (run w i).1.output 2 "invalid character '\n' in element name 'a\n'" := by
  intro w request i
  have code : (run w i).1.code = 2 := by decide
  have told : (runAction w .json i.settingsPath i.action).1.verdict =
      .error ⟨.badArguments, "invalid character '\n' in element name 'a\n'"⟩ := by decide
  obtain ⟨failure, line, verdict, _, _, _, single⟩ :=
    failure_isErrorLine_iff w i rfl (by rw [code]; decide) (by rw [code]; decide)
  obtain rfl := Except.error.inj (told.symm.trans verdict)
  rw [code] at single
  exact single.mpr rfl

/-- A check of the settings prints what it finds as plain text in front of the error. -/
theorem failure_not_isErrorLine :
    let settings := Text.Utf8.ofString
      "\x7b\"settings\":\x7b\"advanced\":\x7b\"a\":\"x\"\x7d\x7d\x7d"
    let tree : Tree := (Tree.mk ∅ []).put ["c.json"] (.file settings)
    let w : World := ⟨tree, ⟨"/home", "", none⟩, [], ⟨0, 0⟩, false⟩
    let i : Invocation := ⟨some "c.json", true, false, false, .settings .verify⟩
    i.mode w.onTerminal = .json ∧ (run w i).1.code = 3 ∧
      ∀ message, ¬ IsErrorLine (run w i).1.output 3 message := by
  intro settings tree w i
  refine ⟨rfl, by decide +kernel, ?_⟩
  have output : (run w i).1.output =
      listing "c.json" ["settings.advanced.a: invalid value 'x': use on or off"] ++
        Answer.line
          (Failure.response ⟨.badSettings, "configuration validation failed"⟩).render := by
    decide +kernel
  intro message
  rw [output]
  exact not_isErrorLine_append (newline_mem_listing _ (List.cons_ne_nil _ _))
    (isErrorLine_response _)

end Command

end VisibilityRules
