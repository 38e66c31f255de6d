import VisibilityRules.Command.Run
import VisibilityRules.Proofs.Posts
import VisibilityRules.Proofs.Reports
import VisibilityRules.Proofs.Storage

set_option autoImplicit false

/-!
What commands do to files. A command writes at most one file, as its last step, so that one that
fails leaves all of them as they were.
-/
namespace VisibilityRules.Command

open Json (Value isWritten_record)

variable {w : World} {i : Invocation}

/-- The file that a command may write. -/
def target? (w : World) (i : Invocation) : Option String :=
  match i.action with
  | .settings (.create _ _) | .settings (.set _ _) => some (w.environment.resolve i.settingsPath)
  | .strip file _ true _ => some file
  | _ => none

/-! ### Settings -/

/-- The settings that a command is to save, if it saves any. -/
def edited? (w : World) (i : Invocation) : Option (Except Failure Settings) :=
  match i.action with
  | .settings (.create elements force) => some (planCreate w i.settingsPath elements force)
  | .settings (.set key value) => some (planSet w i.settingsPath key value)
  | _ => none

theorem saveSettings_facts (w : World) (mode : Mode) (asked : Option String) (settings : Settings)
    (done : String) :
    let saved := settings.save w.tree (w.environment.resolve asked)
    (saveSettings w mode asked settings done).2 = saved.2 ∧
      (saved.1 = .ok () → ((saveSettings w mode asked settings done).1.ending mode).code = 0) := by
  cases outcome : settings.save w.tree (w.environment.resolve asked) with
  | mk result tree =>
  cases result with
  | ok _ =>
    simp only [saveSettings, outcome]
    exact ⟨trivial, fun _ => rfl⟩
  | error e =>
    simp only [saveSettings, outcome]
    exact ⟨trivial, nofun⟩

theorem run_of_edit_error {failure : Failure} (edits : edited? w i = some (.error failure)) :
    (run w i).2 = w.tree := by
  unfold edited? at edits
  split at edits
  next elements force action =>
    simp only [run, action, runAction, runSettings, createSettings, Option.some.inj edits]
  next key value action =>
    simp only [run, action, runAction, runSettings, setSetting, Option.some.inj edits]
  next => exact nomatch edits

theorem run_of_edit_ok {settings : Settings} (edits : edited? w i = some (.ok settings)) :
    let saved := settings.save w.tree (w.environment.resolve i.settingsPath)
    (run w i).2 = saved.2 ∧ (saved.1 = .ok () → (run w i).1.code = 0) := by
  unfold edited? at edits
  split at edits
  next elements force action =>
    simp only [run, action, runAction, runSettings, createSettings, Option.some.inj edits]
    exact saveSettings_facts ..
  next key value action =>
    simp only [run, action, runAction, runSettings, setSetting, Option.some.inj edits]
    exact saveSettings_facts ..
  next => exact nomatch edits

theorem target_of_edit {plan : Except Failure Settings} (edits : edited? w i = some plan) :
    target? w i = some (w.environment.resolve i.settingsPath) := by
  unfold edited? at edits
  unfold target?
  split at edits
  next action => rw [action]
  next action => rw [action]
  next => exact nomatch edits

theorem fileAt_of_edit {settings : Settings} (edits : edited? w i = some (.ok settings)) :
    ((run w i).1.code ≠ 0 → ∀ l, (run w i).2.fileAt l = w.tree.fileAt l) ∧
      ∀ l, (run w i).2.fileAt l ≠ w.tree.fileAt l →
        l = w.tree.location (w.environment.resolve i.settingsPath) := by
  obtain ⟨tree, succeeds⟩ := run_of_edit_ok edits
  cases outcome : settings.save w.tree (w.environment.resolve i.settingsPath) with
  | mk result saved =>
  rw [outcome] at tree succeeds
  rw [tree]
  cases result with
  | ok _ =>
    refine ⟨fun fails => absurd (succeeds rfl) fails, fun l changed => ?_⟩
    by_contra other
    rw [Settings.fileAt_of_save outcome, if_neg other] at changed
    exact changed rfl
  | error e =>
    have same := Settings.fileAt_of_save_error outcome
    exact ⟨fun _ => same, fun l changed => absurd (same l) changed⟩

/-! ### Stripping in place -/

def changed? (output : String) : Option Bool := do
  (← (← result? output).member? "changed").bool?

namespace StripPlan

variable {plan : StripPlan}

theorem isWritten_strippedResult (file : String) (elements : List String) (changed : Bool) :
    (Value.record [("path", .text file), ("elements", .array (elements.map .text)),
      ("changed", .bool changed)]).IsWritten := by
  have texts : (Value.array (elements.map .text)).IsWritten := by
    refine .array fun v mem => ?_
    obtain ⟨element, _, rfl⟩ := List.mem_map.mp mem
    exact .string (some element)
  apply isWritten_record
  simp only [List.forall_mem_cons]
  exact ⟨.string (some file), texts, .bool changed, nofun⟩

theorem changed_strippedAnswer (plan : StripPlan) (file : String) (changed : Bool) :
    changed? (plan.strippedAnswer .json file changed).output = some changed := by
  rw [changed?, strippedAnswer, result_ofMode (isWritten_strippedResult ..)]
  simp [Value.bool?]

theorem stripInPlace_eq (plan : StripPlan) (w : World) (mode : Mode) (file : String) :
    plan.stripInPlace w mode file =
      match Path.fileName? file with
      | none => badArguments ("not a file: " ++ file)
      | some post =>
        match stripPost plan.policy plan.visitor plan.switches
            (FileStore.mk (Path.directory file) w.tree) post with
        | .error e => .error ⟨.badContent, e.message⟩
        | .ok (changed, store) => .ok (plan.strippedAnswer mode file changed, store.tree) := rfl

theorem fileAt_of_stripInPlace {mode : Mode} {file : String} {answer : Answer} {tree : Tree}
    (done : plan.stripInPlace w mode file = .ok (answer, tree)) :
    ∃ changed, answer = plan.strippedAnswer mode file changed ∧
      (∀ l, l ≠ w.tree.location file → tree.fileAt l = w.tree.fileAt l) ∧
      (tree.fileAt (w.tree.location file) ≠ w.tree.fileAt (w.tree.location file) ↔
        changed = true) := by
  rw [stripInPlace_eq] at done
  split at done
  next => exact nomatch done
  next post named =>
    split at done
    next => exact nomatch done
    next changed store stripped =>
      obtain ⟨rfl, rfl⟩ := Prod.mk.inj (Except.ok.inj done)
      have own : w.tree.location (Path.join (Path.directory file) post) = w.tree.location file :=
        Tree.location_congr (Path.join_fileName named).1 (Path.join_fileName named).2
      have facts := fileAt_of_stripPost stripped
      simp only [own] at facts
      exact ⟨changed, rfl, facts⟩

end StripPlan

/-! ### Failures -/

/-- What fails does so with an exit code that tells. -/
def FailsLoudly {α : Type} (x : Except Failure α) : Prop :=
  ∀ failure, x = .error failure → failure.code ≠ .success

namespace FailsLoudly

variable {α β : Type}

theorem ok (a : α) : FailsLoudly (.ok a) := nofun

theorem code_ne_zero {x : Except Failure α} {failure : Failure} (loud : FailsLoudly x)
    (failed : x = .error failure) : failure.code.toNat ≠ 0 := by
  have tells := loud failure failed
  cases code : failure.code <;> simp_all [ExitCode.toNat]

theorem error {failure : Failure} (tells : failure.code ≠ .success) :
    FailsLoudly (.error failure : Except Failure α) := by
  intro _ same
  rw [← Except.error.inj same]
  exact tells

theorem bind {x : Except Failure α} {f : α → Except Failure β} (first : FailsLoudly x)
    (later : ∀ a, FailsLoudly (f a)) : FailsLoudly (x >>= f) := by
  cases x with
  | error failure => exact error (first failure rfl)
  | ok a => exact later a

theorem loadSettings (w : World) (asked : Option String) : FailsLoudly (w.loadSettings asked) := by
  unfold World.loadSettings
  split
  next => exact ok _
  next => exact error nofun

theorem badRequest (x : Except RequestError α) : FailsLoudly (World.badRequest x) := by
  cases x with
  | ok a => exact ok a
  | error e => exact error nofun

theorem readRequest (w : World) (settings : Settings) (request : RequestFlags) :
    FailsLoudly (w.readRequest settings request) :=
  (badRequest _).bind fun _ => (badRequest _).bind fun _ => ok _

theorem checkNames (elements : List String) : FailsLoudly (elements.forM checkName) := by
  induction elements with
  | nil => exact ok ()
  | cons element elements ih =>
    have first : FailsLoudly (checkName element) := by
      unfold checkName
      split
      next => exact ok ()
      next => exact error nofun
    exact first.bind fun _ => ih

theorem planStrip (w : World) (asked : Option String) (file : String) (elements : List String)
    (inPlace : Bool) (request : RequestFlags) :
    FailsLoudly (Command.planStrip w asked file elements inPlace request) := by
  unfold Command.planStrip
  split
  next => exact error nofun
  next =>
    refine (loadSettings w asked).bind fun settings => FailsLoudly.bind ?_ fun switches =>
      (readRequest w settings request).bind fun _ => ok _
    unfold stripSwitches
    split
    next => exact ok _
    next => exact (checkNames elements).bind fun _ => ok _

theorem stripInPlace (plan : StripPlan) (w : World) (mode : Mode) (file : String) :
    FailsLoudly (plan.stripInPlace w mode file) := by
  rw [StripPlan.stripInPlace_eq]
  split
  next => exact error nofun
  next =>
    split
    next => exact error nofun
    next => exact ok _

end FailsLoudly

/-! ### Running -/

section

variable {file : String} {elements : List String} {request : RequestFlags} {inPlace : Bool}

theorem run_of_plan_error {failure : Failure}
    (action : i.action = .strip file elements inPlace request)
    (planned : planStrip w i.settingsPath file elements inPlace request = .error failure) :
    (run w i).1.code ≠ 0 ∧ (run w i).2 = w.tree := by
  have outcome : run w i = ((Answer.fail failure).ending (i.mode w.onTerminal), w.tree) := by
    simp only [run, action, runAction, strip, planned]
  rw [outcome, code_of_error rfl]
  exact ⟨(FailsLoudly.planStrip _ _ _ _ _ _).code_ne_zero planned, rfl⟩

theorem run_in_place {plan : StripPlan} (action : i.action = .strip file elements true request)
    (planned : planStrip w i.settingsPath file elements true request = .ok plan) :
    let mode := i.mode w.onTerminal
    run w i =
      match plan.stripInPlace w mode file with
      | .ok (answer, tree) => ({ answer with notes := plan.warning mode }.ending mode, tree)
      | .error failure =>
        ({ Answer.fail failure with notes := plan.warning mode }.ending mode, w.tree) := by
  intro mode
  simp only [run, action, runAction, strip, planned, if_true, mode]
  cases plan.stripInPlace w (i.mode w.onTerminal) file <;> rfl

theorem run_in_place_ok {plan : StripPlan} {changed : Bool} {tree : Tree}
    (action : i.action = .strip file elements true request)
    (planned : planStrip w i.settingsPath file elements true request = .ok plan)
    (stripped : plan.stripInPlace w (i.mode w.onTerminal) file =
      .ok (plan.strippedAnswer (i.mode w.onTerminal) file changed, tree)) :
    (run w i).1.code = 0 ∧
      (run w i).1.output = (plan.strippedAnswer (i.mode w.onTerminal) file changed).output ∧
      (run w i).2 = tree := by
  let noted : Answer :=
    { plan.strippedAnswer (i.mode w.onTerminal) file changed with
      notes := plan.warning (i.mode w.onTerminal) }
  have verdict : noted.verdict = .ok .success := verdict_ofMode ..
  obtain ⟨code, output⟩ := ending_of_ok verdict (i.mode w.onTerminal)
  rw [run_in_place action planned, stripped]
  exact ⟨code, output, rfl⟩

/-- A command that strips in place fails and leaves the files, or it answers for the file it has
stripped. -/
theorem run_strip_in_place (action : i.action = .strip file elements true request) :
    ((run w i).1.code ≠ 0 ∧ (run w i).2 = w.tree) ∨
      ∃ (plan : StripPlan) (changed : Bool),
        (run w i).1.code = 0 ∧
        (run w i).1.output =
          (plan.strippedAnswer (i.mode w.onTerminal) file changed).output ∧
        (∀ l, l ≠ w.tree.location file → (run w i).2.fileAt l = w.tree.fileAt l) ∧
        ((run w i).2.fileAt (w.tree.location file) ≠ w.tree.fileAt (w.tree.location file) ↔
          changed = true) := by
  cases planned : planStrip w i.settingsPath file elements true request with
  | error failure => exact .inl (run_of_plan_error action planned)
  | ok plan =>
    cases stripped : plan.stripInPlace w (i.mode w.onTerminal) file with
    | error failure =>
      have loud := (FailsLoudly.stripInPlace plan w _ file).code_ne_zero stripped
      rw [run_in_place action planned, stripped, code_of_error rfl]
      exact .inl ⟨loud, rfl⟩
    | ok result =>
      obtain ⟨answer, tree⟩ := result
      obtain ⟨changed, rfl, facts⟩ := StripPlan.fileAt_of_stripInPlace stripped
      obtain ⟨code, output, left⟩ := run_in_place_ok action planned stripped
      rw [left]
      exact .inr ⟨plan, changed, code, output, facts⟩

end

theorem run_cases (w : World) (i : Invocation) :
    (run w i).2 = w.tree ∨ (∃ settings, edited? w i = some (.ok settings)) ∨
      ∃ file elements request, i.action = .strip file elements true request := by
  cases edits : edited? w i with
  | some plan =>
    cases plan with
    | error failure => exact .inl (run_of_edit_error edits)
    | ok settings => exact .inr (.inl ⟨settings, rfl⟩)
  | none =>
    cases action : i.action with
    | strip file elements inPlace request =>
      cases inPlace with
      | true => exact .inr (.inr ⟨file, elements, request, rfl⟩)
      | false =>
        refine .inl ?_
        simp only [run, action, runAction, strip]
        split
        next => rfl
        next => simp
    | settings subcommand =>
      simp only [edited?, action] at edits
      cases subcommand with
      | create elements force => exact nomatch edits
      | set key value => exact nomatch edits
      | _ => exact .inl (by simp only [run, action, runAction, runSettings])
    | _ => exact .inl (by simp only [run, action, runAction])

/-- A command that fails leaves every file as it was. One that succeeds may change the settings
file, if it saves settings, or the file that it strips in place; that one differs just if the
answer says so. -/
theorem run_changes_target (w : World) (i : Invocation) :
    ((run w i).1.code ≠ 0 → ∀ l, (run w i).2.fileAt l = w.tree.fileAt l) ∧
    (∀ l, (run w i).2.fileAt l ≠ w.tree.fileAt l →
      ∃ path, target? w i = some path ∧ l = w.tree.location path) ∧
    ∀ (file : String) (elements : List String) (request : RequestFlags),
      i.action = .strip file elements true request → (run w i).1.code = 0 →
        ∃ changed : Bool,
          ((run w i).2.fileAt (w.tree.location file) ≠ w.tree.fileAt (w.tree.location file) ↔
            changed = true) ∧
          (i.mode w.onTerminal = .json → changed? (run w i).1.output = some changed) ∧
          (i.mode w.onTerminal = .text → (run w i).1.output =
            Answer.line (if changed then "Stripped " ++ file else file ++ ": nothing hidden")) := by
  refine ⟨?_, ?_, ?_⟩
  · intro fails l
    obtain same | ⟨settings, edits⟩ | ⟨file, elements, request, action⟩ := run_cases w i
    · rw [same]
    · exact (fileAt_of_edit edits).1 fails l
    · obtain ⟨_, same⟩ | ⟨_, _, succeeds, _⟩ := run_strip_in_place action
      · rw [same]
      · exact absurd succeeds fails
  · intro l changed
    obtain same | ⟨settings, edits⟩ | ⟨file, elements, request, action⟩ := run_cases w i
    · exact absurd (by rw [same]) changed
    · exact ⟨_, target_of_edit edits, (fileAt_of_edit edits).2 l changed⟩
    · refine ⟨file, by rw [target?, action], ?_⟩
      by_contra other
      obtain ⟨_, same⟩ | ⟨_, _, _, _, others, _⟩ := run_strip_in_place action
      · exact changed (by rw [same])
      · exact changed (others l other)
  · intro file elements request action succeeds
    obtain ⟨fails, _⟩ | ⟨plan, changed, _, output, _, differs⟩ := run_strip_in_place action
    · exact absurd succeeds fails
    · refine ⟨changed, differs, fun json => ?_, fun text => ?_⟩
      · rw [output, json, StripPlan.changed_strippedAnswer]
      · rw [output, text]
        rfl

theorem run_changes_target_post :
    let text := "é[tag showfor=logged_in/]"
    let tree : Tree := (Tree.mk ∅ []).put ["post"] (.file (Text.Utf8.ofString text))
    let w : World := ⟨tree, ⟨"/home", "", none⟩, [], ⟨0, 0⟩, false⟩
    let request : RequestFlags := ⟨none, [], [], none, none, none, none, []⟩
    let i : Invocation := ⟨none, true, false, false, .strip "./post" ["tag"] true request⟩
    (run w i).1.code = 0 ∧ ∃ changed : Bool,
      ((run w i).2.fileAt (tree.location "./post") ≠ tree.fileAt (tree.location "./post") ↔
        changed = true) ∧ changed? (run w i).1.output = some changed := by
  intro text tree w request i
  have succeeds : (run w i).1.code = 0 := by decide +kernel
  obtain ⟨changed, differs, told, _⟩ :=
    (run_changes_target w i).2.2 "./post" ["tag"] request rfl succeeds
  exact ⟨succeeds, changed, differs, told rfl⟩

end VisibilityRules.Command
