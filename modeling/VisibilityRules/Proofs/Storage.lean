import VisibilityRules.Proofs.Document
import VisibilityRules.Proofs.Files
import VisibilityRules.Settings.Storage

set_option autoImplicit false

/-!
Settings in their file. What is saved is loaded again, and a save that fails leaves every file as it
was.
-/
namespace VisibilityRules.Settings

variable {s : Settings} {t after : Tree} {path : String}

def ofBytes? (bytes : List UInt8) : Option Settings :=
  (Text.Utf8.toString? bytes).bind ofText?

theorem ofBytes_render (s : Settings) : ofBytes? (Text.Utf8.ofString s.render) = some s := by
  rw [ofBytes?, Text.Utf8.toString_ofString, Option.bind_some, ofText_render]

theorem load_cases (loaded : load t path = .ok s) :
    s = .empty ∨ ∃ bytes, t.find path = .ok (.file bytes) ∧ ofBytes? bytes = some s := by
  unfold load at loaded
  split at loaded
  next => exact .inl (Except.ok.inj loaded).symm
  next =>
    split at loaded
    next => exact nomatch loaded
    next content read =>
      split at loaded
      next parsed =>
        obtain ⟨bytes, found, decoded⟩ := Tree.read_eq_ok_iff.mp read
        rw [← Except.ok.inj loaded]
        exact .inr ⟨bytes, found, by rw [ofBytes?, decoded, Option.bind_some, parsed]⟩
      next => exact nomatch loaded

theorem load_and_verify_of_find {bytes : List UInt8} (found : t.find path = .ok (.file bytes))
    (parsed : ofBytes? bytes = some s) :
    load t path = .ok s ∧ verify t path = .ok s.problems := by
  obtain ⟨content, decoded, parsed⟩ := Option.bind_eq_some_iff.mp parsed
  have held : t.holds path = true := by
    rw [Tree.holds, found]
    rfl
  have read : t.read path = .ok content := Tree.read_eq_ok_iff.mpr ⟨bytes, found, decoded⟩
  simp only [load, verify, held, read, parsed, Bool.not_true, Bool.false_eq_true, if_false,
    and_self]

theorem save_eq_ok_iff :
    s.save t path = (.ok (), after) ↔
      (t.makeParents path).1 = .ok () ∧ (t.makeParents path).2.write path s.render = .ok after := by
  unfold save
  split
  next e made failed => simp [failed]
  next made done =>
    rw [done]
    split
    next e refused => simp [refused]
    next written accepted => simp [accepted]

theorem save_eq_error {e : SettingsError} (failed : s.save t path = (.error e, after)) :
    after = (t.makeParents path).2 ∧
      ((∃ cause, (t.makeParents path).1 = .error cause) ∨
        ∃ cause, after.write path s.render = .error cause) := by
  unfold save at failed
  split at failed
  next cause made unmade =>
    rw [unmade]
    exact ⟨(Prod.mk.inj failed).2.symm, .inl ⟨cause, rfl⟩⟩
  next made done =>
    rw [done]
    split at failed
    next cause refused =>
      obtain rfl := (Prod.mk.inj failed).2
      exact ⟨rfl, .inr ⟨cause, refused⟩⟩
    next => exact nomatch (Prod.mk.inj failed).1

theorem keepsDirectories_save (s : Settings) (t : Tree) (path : String) :
    t.KeepsDirectories (s.save t path).2 := by
  have made := (Tree.makeParents_adds t path).toKeepsDirectories
  cases outcome : s.save t path with
  | mk result after =>
    cases result with
    | ok _ => exact made.trans (Tree.keepsDirectories_of_write (save_eq_ok_iff.mp outcome).2)
    | error e =>
      rw [(save_eq_error outcome).1]
      exact made

section

variable (saved : s.save t path = (.ok (), after))
include saved

theorem find_of_save : after.find path = .ok (.file (Text.Utf8.ofString s.render)) :=
  Tree.find_of_write (save_eq_ok_iff.mp saved).2

theorem fileAt_of_save (l : Location) :
    after.fileAt l =
      if l = t.location path then some (Text.Utf8.ofString s.render) else t.fileAt l := by
  have made := Tree.makeParents_adds t path
  rw [Tree.fileAt_of_write (save_eq_ok_iff.mp saved).2 l, made.files, made.location]

end

section

variable {e : SettingsError} (failed : s.save t path = (.error e, after))
include failed

theorem fileAt_of_save_error (l : Location) : after.fileAt l = t.fileAt l := by
  rw [(save_eq_error failed).1]
  exact (Tree.makeParents_adds t path).files l

/-- A path that leads to a file after a save that failed led to it before. -/
theorem find_of_save_error {bytes : List UInt8} (found : after.find path = .ok (.file bytes)) :
    t.find path = .ok (.file bytes) := by
  obtain ⟨rfl, unmade | refused⟩ := save_eq_error failed
  · obtain ⟨cause, unmade⟩ := unmade
    have same : (t.makeParents path).2 = t :=
      Tree.find_of_makeParents_error (Prod.ext unmade rfl) found
    exact same ▸ found
  · obtain ⟨cause, refused⟩ := refused
    rw [Tree.write, Tree.writeBytes, Tree.target_of_find_file found] at refused
    exact nomatch refused

end

/-- Where some settings can be saved, all can, and they are loaded again as they were. -/
theorem load_save (s other : Settings) (writable : (other.save t path).1 = .ok ()) :
    (s.save t path).1 = .ok () ∧ load (s.save t path).2 path = .ok s := by
  obtain ⟨made, written⟩ := save_eq_ok_iff.mp (Prod.ext writable rfl)
  obtain ⟨after, written⟩ := Tree.exists_write written s.render
  have saved : s.save t path = (.ok (), after) := save_eq_ok_iff.mpr ⟨made, written⟩
  rw [saved]
  exact ⟨rfl, (load_and_verify_of_find (find_of_save saved) s.ofBytes_render).1⟩

theorem load_save_quoted :
    let t : Tree := ⟨∅, ["home"]⟩
    let s : Settings :=
      ⟨⟨.ofEntries [("a\"b\\", "on"), ("", "\n")], ∅⟩, .ofEntries [("\x00é", true)]⟩
    (empty.save t "./settings.json").1 = .ok () ∧
      (s.save t "./settings.json").1 = .ok () ∧
      load (s.save t "./settings.json").2 "./settings.json" = .ok s := by
  intro t s
  have writable : (empty.save t "./settings.json").1 = .ok () := by decide
  exact ⟨writable, load_save s .empty writable⟩

end VisibilityRules.Settings
