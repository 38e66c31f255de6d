import VisibilityRules.Proofs.Editing
import VisibilityRules.Proofs.Effects

set_option autoImplicit false

/-!
Settings over many commands. Whatever is created and set, and whatever of it fails, the file holds
valid settings as long as all that it ever held was written by these commands.
-/
namespace VisibilityRules.Command

variable {w : World} {i : Invocation} {asked : Option String} {settings : Settings}

/-- The command creates settings or sets one. -/
def Action.editsSettings : Action → Bool
  | .settings (.create _ _) | .settings (.set _ _) => true
  | _ => false

/-- The files after some commands, each of them run in its world but on the files that the earlier
ones have left. -/
def filesAfter (t : Tree) : List (World × Invocation) → Tree
  | [] => t
  | (w, i) :: later => filesAfter (run { w with tree := t } i).2 later

def HoldsValid (bytes : List UInt8) : Prop :=
  ∃ s, Settings.ofBytes? bytes = some s ∧ s.switches.Valid

theorem holdsValid_render {s : Settings} (valid : s.switches.Valid) :
    HoldsValid (Text.Utf8.ofString s.render) :=
  ⟨s, s.ofBytes_render, valid⟩

/-! ### One command -/

theorem named_of_checkNames {elements : List String} (checked : elements.forM checkName = .ok ()) :
    ∀ element ∈ elements, ElementName.problem? element = none := by
  induction elements with
  | nil => exact nofun
  | cons element elements ih =>
    obtain ⟨_, first, others⟩ := bind_eq_ok_iff.mp checked
    refine List.forall_mem_cons.mpr ⟨?_, ih others⟩
    unfold checkName at first
    split at first
    next named => exact named
    next => exact nomatch first

theorem valid_planCreate {elements : List String} {force : Bool}
    (planned : planCreate w asked elements force = .ok settings) : settings.switches.Valid := by
  obtain ⟨_, checked, planned⟩ := bind_eq_ok_iff.mp planned
  obtain ⟨loaded, _, planned⟩ := bind_eq_ok_iff.mp planned
  split at planned
  next => exact nomatch planned
  next =>
    rw [← Except.ok.inj planned]
    exact Switches.valid_fresh (named_of_checkNames checked)

theorem valid_planSet {key value : String}
    (held : ∀ bytes, w.tree.find (w.environment.resolve asked) = .ok (.file bytes) →
      HoldsValid bytes)
    (planned : planSet w asked key value = .ok settings) : settings.switches.Valid := by
  obtain ⟨before, read, planned⟩ := bind_eq_ok_iff.mp planned
  have valid : before.switches.Valid := by
    unfold World.loadSettings at read
    split at read
    next loaded =>
      rw [← Except.ok.inj read]
      obtain rfl | ⟨bytes, found, parsed⟩ := Settings.load_cases loaded
      · exact Switches.valid_empty
      · obtain ⟨s, same, valid⟩ := held bytes found
        obtain rfl := Option.some.inj (parsed.symm.trans same)
        exact valid
    next => exact nomatch read
  split at planned
  next done =>
    rw [← Except.ok.inj planned]
    exact Settings.valid_set valid done
  next => exact nomatch planned

theorem valid_edited
    (held : ∀ bytes, w.tree.find (w.environment.resolve i.settingsPath) = .ok (.file bytes) →
      HoldsValid bytes)
    (edits : edited? w i = some (.ok settings)) : settings.switches.Valid := by
  unfold edited? at edits
  split at edits
  next => exact valid_planCreate (Option.some.inj edits)
  next => exact valid_planSet held (Option.some.inj edits)
  next => exact nomatch edits

theorem edit_cases (edits : i.action.editsSettings = true) :
    (run w i).2 = w.tree ∨ ∃ settings result, edited? w i = some (.ok settings) ∧
      settings.save w.tree (w.environment.resolve i.settingsPath) = (result, (run w i).2) := by
  cases edited : edited? w i with
  | none =>
    unfold edited? at edited
    unfold Action.editsSettings at edits
    split at edited
    next => exact absurd edited (Option.some_ne_none _)
    next => exact absurd edited (Option.some_ne_none _)
    next no_create no_set =>
      split at edits
      next elements force action => exact absurd action (no_create elements force)
      next key value action => exact absurd action (no_set key value)
      next => exact absurd edits Bool.false_ne_true
  | some plan =>
    cases plan with
    | error failure => exact .inl (run_of_edit_error edited)
    | ok settings =>
      let saved := settings.save w.tree (w.environment.resolve i.settingsPath)
      have left : (run w i).2 = saved.2 := (run_of_edit_ok edited).1
      refine .inr ⟨settings, saved.1, rfl, ?_⟩
      rw [left]

/-- A path under which settings are edited leads to valid ones, if it did so before. -/
theorem holdsValid_run (edits : i.action.editsSettings = true)
    (held : ∀ bytes, w.tree.find (w.environment.resolve i.settingsPath) = .ok (.file bytes) →
      HoldsValid bytes) :
    ∀ bytes, (run w i).2.find (w.environment.resolve i.settingsPath) = .ok (.file bytes) →
      HoldsValid bytes := by
  intro bytes found
  obtain same | ⟨settings, result, edited, outcome⟩ := @edit_cases w i edits
  · rw [same] at found
    exact held bytes found
  · cases result with
    | ok _ =>
      rw [Settings.find_of_save outcome] at found
      rw [← Node.file.inj (Except.ok.inj found)]
      exact holdsValid_render (valid_edited held edited)
    | error e => exact held bytes (Settings.find_of_save_error outcome found)

/-- Wherever there are valid settings they stay valid, whatever paths the settings are edited under. -/
theorem holdsValid_run_at {l : Location} (edits : i.action.editsSettings = true)
    (held : ∀ bytes, w.tree.fileAt l = some bytes → HoldsValid bytes) :
    ∀ bytes, (run w i).2.fileAt l = some bytes → HoldsValid bytes := by
  intro bytes found
  obtain same | ⟨settings, result, edited, outcome⟩ := @edit_cases w i edits
  · rw [same] at found
    exact held bytes found
  · cases result with
    | ok _ =>
      rw [Settings.fileAt_of_save outcome] at found
      split at found
      next own =>
        rw [← Option.some.inj found]
        refine holdsValid_render (valid_edited (fun bytes led => held bytes ?_) edited)
        rw [own]
        exact Tree.fileAt_of_find_file led
      next => exact held bytes found
    | error e =>
      rw [Settings.fileAt_of_save_error outcome] at found
      exact held bytes found

theorem location_run (edits : i.action.editsSettings = true) (path : String) :
    (run w i).2.location path = w.tree.location path := by
  obtain same | ⟨settings, result, _, outcome⟩ := @edit_cases w i edits
  · rw [same]
  · have keeps := Settings.keepsDirectories_save settings w.tree
      (w.environment.resolve i.settingsPath)
    rw [outcome] at keeps
    exact keeps.location path

/-! ### Many commands -/

section

variable {start : Tree} {commands : List (World × Invocation)} {path : String}
  (edits : ∀ c ∈ commands, c.2.action.editsSettings = true)
include edits

theorem holdsValid_filesAfter
    (same_path : ∀ c ∈ commands, c.1.environment.resolve c.2.settingsPath = path)
    (held : ∀ bytes, start.find path = .ok (.file bytes) → HoldsValid bytes) :
    ∀ bytes, (filesAfter start commands).find path = .ok (.file bytes) → HoldsValid bytes := by
  induction commands generalizing start with
  | nil => exact held
  | cons c commands ih =>
    obtain ⟨w, i⟩ := c
    obtain ⟨first, edits⟩ := List.forall_mem_cons.mp edits
    obtain ⟨rfl, same_path⟩ := List.forall_mem_cons.mp same_path
    apply ih edits same_path
    exact @holdsValid_run { w with tree := start } i first held

theorem holdsValid_filesAfter_at {l : Location}
    (held : ∀ bytes, start.fileAt l = some bytes → HoldsValid bytes) :
    ∀ bytes, (filesAfter start commands).fileAt l = some bytes → HoldsValid bytes := by
  induction commands generalizing start with
  | nil => exact held
  | cons c commands ih =>
    obtain ⟨w, i⟩ := c
    obtain ⟨first, edits⟩ := List.forall_mem_cons.mp edits
    apply ih edits
    exact @holdsValid_run_at { w with tree := start } i l first held

theorem location_filesAfter : (filesAfter start commands).location path = start.location path := by
  induction commands generalizing start with
  | nil => rfl
  | cons c commands ih =>
    obtain ⟨w, i⟩ := c
    obtain ⟨first, edits⟩ := List.forall_mem_cons.mp edits
    exact (ih edits).trans (@location_run { w with tree := start } i first path)

end

/-- Commands that create and set settings leave a file that loads, and of which the check says just
that some elements are disabled and advanced, once for each of them. There must have been no file
where the path leads; if all the commands go by this very path, it is enough that it led to none. -/
theorem edited_settings_are_valid (start : Tree) (commands : List (World × Invocation))
    (path : String) (edits : ∀ c ∈ commands, c.2.action.editsSettings = true)
    (absent : start.fileAt (start.location path) = none ∨
      (∀ c ∈ commands, c.1.environment.resolve c.2.settingsPath = path) ∧
        ∀ bytes, start.find path ≠ .ok (.file bytes)) :
    let t := filesAfter start commands
    ∀ bytes, t.find path = .ok (.file bytes) →
      ∃ (s : Settings) (elements : List String), Settings.load t path = .ok s ∧
        Settings.verify t path = .ok (elements.map Settings.noEffect) ∧ elements.Nodup ∧
        ∀ element, element ∈ elements ↔ s.switches.isAdvanced element = true ∧
          s.switches.enabledState element = .disabled := by
  intro t bytes found
  -- A directory that is made later may let a path lead to an old file, so what is followed is the
  -- place of the file, or else the one path in use.
  have holds : HoldsValid bytes := by
    rcases absent with nowhere | ⟨same_path, nothing⟩
    · have none_before : ∀ bytes, start.fileAt (start.location path) = some bytes →
          HoldsValid bytes := by
        intro bytes before
        rw [nowhere] at before
        exact nomatch before
      have after := Tree.fileAt_of_find_file found
      rw [location_filesAfter edits] at after
      exact holdsValid_filesAfter_at edits none_before bytes after
    · exact holdsValid_filesAfter edits same_path
        (fun bytes before => absurd before (nothing bytes)) bytes found
  obtain ⟨s, parsed, valid⟩ := holds
  obtain ⟨loaded, verified⟩ := Settings.load_and_verify_of_find found parsed
  rw [Settings.problems_of_valid valid] at verified
  exact ⟨s, s.switches.withoutEffect, loaded, verified, s.switches.nodup_withoutEffect,
    fun _ => Switches.mem_withoutEffect⟩

theorem edited_settings_are_valid_disabled :
    let w : World := ⟨⟨∅, []⟩, ⟨"/home", "", none⟩, [], ⟨0, 0⟩, false⟩
    let commands : List (World × Invocation) :=
      [.create ["a b"] true, .set "settings.enabled.a" "Disabled",
        .set "settings.advanced.a" "YES"].map fun action =>
          (w, ⟨some "c/d", false, false, false, .settings action⟩)
    let t := filesAfter w.tree commands
    (∃ bytes, t.find "c/d" = .ok (.file bytes)) ∧
      ∃ (s : Settings) (elements : List String), Settings.load t "c/d" = .ok s ∧
        Settings.verify t "c/d" = .ok (elements.map Settings.noEffect) ∧ elements.Nodup := by
  intro w commands t
  have edits : ∀ c ∈ commands, c.2.action.editsSettings = true := by decide
  have absent : w.tree.fileAt (w.tree.location "c/d") = none := by decide +kernel
  have readable : (t.read "c/d").isOk = true := by decide +kernel
  have found : ∃ bytes, t.find "c/d" = .ok (.file bytes) := by
    cases read : t.read "c/d" with
    | error e =>
      rw [read] at readable
      cases readable
    | ok content =>
      obtain ⟨bytes, there, _⟩ := Tree.read_eq_ok_iff.mp read
      exact ⟨bytes, there⟩
  obtain ⟨bytes, there⟩ := found
  obtain ⟨s, elements, loaded, verified, distinct, _⟩ :=
    edited_settings_are_valid w.tree commands "c/d" edits (.inl absent) bytes there
  exact ⟨⟨bytes, there⟩, s, elements, loaded, verified, distinct⟩

end VisibilityRules.Command
