import VisibilityRules.Proofs.Effects
import VisibilityRules.Proofs.PostPaths

set_option autoImplicit false

/-!
Stripping a file in place and printing what is left of it. Printing reads the file by its path; in
place the path is cut into a directory and the id of a post, and both lead to the same file.
-/
namespace VisibilityRules

/-! ### Files as posts -/

namespace FileStore

variable {file post : String} {t : Tree} {text new : String} {s : FileStore}

theorem isInner_of_fileName (named : Path.fileName? file = some post) : IsInner post := by
  obtain ⟨last, not_above⟩ := Option.filter_eq_some_iff.mp named
  have mem := List.mem_of_getLast? last
  have listed := List.mem_filter.mp (Path.steps_eq file ▸ mem)
  have plain := Path.pieces_of_free (Path.not_mem_of_mem_pieces listed.1)
  refine ⟨?_, ?_, ?_⟩
  · rintro rfl
    exact absurd listed.2 (by decide)
  · simpa [Path.isAbsolute] using Path.isAbsolute_of_mem_steps mem
  · rw [plain, List.mem_singleton]
    rintro rfl
    exact absurd not_above (by decide)

/-- A file that can be read is the post of its name in a store of its directory. -/
theorem read_fileName (read : t.read file = .ok text) :
    ∃ post, Path.fileName? file = some post ∧
      PostStore.read (FileStore.mk (Path.directory file) t) post = .ok text := by
  obtain ⟨bytes, found, decoded⟩ := Tree.read_eq_ok_iff.mp read
  obtain ⟨post, named, found⟩ := Tree.find_by_directory found
  exact ⟨post, named, read_eq_ok_iff.mpr ⟨_, pathOf_of_inner (isInner_of_fileName named) _,
    Tree.read_eq_ok_iff.mpr ⟨bytes, found, decoded⟩⟩⟩

theorem read_of_write_fileName (named : Path.fileName? file = some post)
    (read : t.read file = .ok text)
    (written : PostStore.write (FileStore.mk (Path.directory file) t) post new = .ok s) :
    s.tree.read file = .ok new := by
  obtain ⟨path, tree, taken, put, rfl⟩ := write_eq_ok_iff.mp written
  rw [pathOf_of_inner (isInner_of_fileName named)] at taken
  obtain rfl := Except.ok.inj taken
  obtain ⟨bytes, found, _⟩ := Tree.read_eq_ok_iff.mp read
  have same := Path.join_fileName named
  exact Tree.read_eq_ok_iff.mpr ⟨_, Tree.find_of_write_at found
    (Tree.location_congr same.1 same.2) put, Text.Utf8.toString_ofString new⟩

/-- A pass over the post of a file rewrites the file, if it finds something hidden in it. -/
theorem stripPost_fileName (policy : Policy) (visitor : Visitor) (switches : Switches)
    (read : t.read file = .ok text) :
    let stripped := Content.stripAdvanced policy visitor switches text
    ∃ post s, Path.fileName? file = some post ∧
      stripPost policy visitor switches (FileStore.mk (Path.directory file) t) post =
        .ok (decide (stripped ≠ text), s) ∧
      s.tree.read file = .ok stripped := by
  intro stripped
  obtain ⟨post, named, stored⟩ := read_fileName read
  by_cases hidden : Content.HasHidden policy visitor switches text
  next =>
    have differs : stripped ≠ text :=
      fun same => (Content.stripAdvanced_eq_self_iff ..).mp same hidden
    obtain ⟨s, written⟩ := LawfulPostStore.exists_write stored stripped
    refine ⟨post, s, named, ?_, read_of_write_fileName named read written⟩
    rw [stripPost_of_hidden stored hidden, written, decide_eq_true differs]
    rfl
  next =>
    have same : stripped = text := (Content.stripAdvanced_eq_self_iff ..).mpr hidden
    refine ⟨post, ⟨Path.directory file, t⟩, named, ?_, ?_⟩
    · rw [stripPost_of_not_hidden stored hidden, decide_eq_false (not_not_intro same)]
    · rw [same]
      exact read

end FileStore

namespace Command

variable {w : World} {i : Invocation} {file : String} {elements : List String}
  {request : RequestFlags} {old : String}

/-! ### The two modes -/

theorem planStrip_in_place (named : file ≠ "-") (w : World) (asked : Option String) :
    planStrip w asked file elements true request =
      planStrip w asked file elements false request := by
  simp [planStrip, named]

theorem read_of_readContent (named : file ≠ "-") (content : w.readContent file = .ok old) :
    w.tree.read file = .ok old := by
  rw [World.readContent, if_neg named] at content
  split at content
  next text read => rw [read, Except.ok.inj content]
  next => exact nomatch content

theorem FailsLoudly.readContent (w : World) (file : String) : FailsLoudly (w.readContent file) := by
  unfold World.readContent
  split
  all_goals
    split
    next => exact ok _
    next => exact error nofun

namespace StripPlan

def strip (plan : StripPlan) (text : String) : String :=
  Content.stripAdvanced plan.policy plan.visitor plan.switches text

theorem stripInPlace_of_read (plan : StripPlan) (mode : Mode) (read : w.tree.read file = .ok old) :
    ∃ tree, plan.stripInPlace w mode file =
        .ok (plan.strippedAnswer mode file (decide (plan.strip old ≠ old)), tree) ∧
      tree.read file = .ok (plan.strip old) := by
  obtain ⟨post, s, named, done, left⟩ :=
    FileStore.stripPost_fileName plan.policy plan.visitor plan.switches read
  refine ⟨s.tree, ?_, left⟩
  rw [stripInPlace_eq, named]
  simp only [done]
  rfl

end StripPlan

/-- A command that prints a stripped file has read the file and leaves all of them. -/
theorem run_print (action : i.action = .strip file elements false request)
    (succeeds : (run w i).1.code = 0) :
    (run w i).2 = w.tree ∧
      ∃ plan old, planStrip w i.settingsPath file elements false request = .ok plan ∧
        w.readContent file = .ok old ∧ (run w i).1.output = plan.strip old := by
  cases planned : planStrip w i.settingsPath file elements false request with
  | error failure => exact absurd succeeds (run_of_plan_error action planned).1
  | ok plan =>
    have outcome : run w i = ({ answerOf (plan.printStripped w file) with
        notes := plan.warning (i.mode w.onTerminal) }.ending (i.mode w.onTerminal), w.tree) := by
      simp only [run, action, runAction, Command.strip, planned, Bool.false_eq_true, if_false]
    rw [outcome, StripPlan.printStripped] at succeeds ⊢
    cases content : w.readContent file with
    | error failure =>
      rw [content] at succeeds
      have loud := (FailsLoudly.readContent w file).code_ne_zero content
      rw [code_of_error rfl] at succeeds
      exact absurd succeeds loud
    | ok old => exact ⟨rfl, plan, old, rfl, rfl, rfl⟩

/-- Where printing what is left of a file succeeds, stripping it in place succeeds too, and the file
then reads as what was printed. No other file changes. The answer tells whether the text differs
from the old one. -/
theorem strip_in_place_agrees (w : World) (i j : Invocation) {file : String}
    {elements : List String} {request : RequestFlags} (named : file ≠ "-")
    (prints : i.action = .strip file elements false request)
    (rewrites : j.action = .strip file elements true request)
    (same_settings : j.settingsPath = i.settingsPath) (succeeds : (run w i).1.code = 0) :
    (run w i).2 = w.tree ∧ (run w j).1.code = 0 ∧
      (run w j).2.read file = .ok (run w i).1.output ∧
      (∀ l, l ≠ w.tree.location file → (run w j).2.fileAt l = w.tree.fileAt l) ∧
      ∃ old, w.tree.read file = .ok old ∧
        (j.mode w.onTerminal = .json →
          changed? (run w j).1.output = some (decide ((run w i).1.output ≠ old))) ∧
        (j.mode w.onTerminal = .text → (run w j).1.output =
          Answer.line (if (run w i).1.output = old then file ++ ": nothing hidden"
            else "Stripped " ++ file)) := by
  obtain ⟨left, plan, old, planned, content, output⟩ := run_print prints succeeds
  rw [← planStrip_in_place named, ← same_settings] at planned
  have read := read_of_readContent named content
  obtain ⟨tree, stripped, text⟩ := plan.stripInPlace_of_read (j.mode w.onTerminal) read
  obtain ⟨code, told, tree_eq⟩ := run_in_place_ok rewrites planned stripped
  obtain ⟨_, _, others, _⟩ := StripPlan.fileAt_of_stripInPlace stripped
  rw [output, told, tree_eq]
  refine ⟨left, code, text, others, old, read, fun json => ?_, fun plain => ?_⟩
  · rw [json, StripPlan.changed_strippedAnswer]
  · rw [plain]
    by_cases same : plan.strip old = old
    next => simp [StripPlan.strippedAnswer, Answer.ofMode, Answer.ok, same]
    next => simp [StripPlan.strippedAnswer, Answer.ofMode, Answer.ok, same]

theorem strip_in_place_agrees_dotted :
    let file := "./a/..//a/./post"
    let text := "é[tag showfor=logged_in/]"
    let tree : Tree := (Tree.mk ∅ ["home"]).put ["home"] .directory
      |>.put ["home", "a"] .directory
      |>.put ["home", "a", "post"] (.file (Text.Utf8.ofString text))
    let w : World := ⟨tree, ⟨"/home", "", none⟩, [], ⟨0, 0⟩, false⟩
    let request : RequestFlags := ⟨none, [], [], none, none, none, none, []⟩
    let i : Invocation := ⟨none, false, false, true, .strip file ["tag"] false request⟩
    let j : Invocation := ⟨none, true, false, false, .strip file ["tag"] true request⟩
    file ≠ "-" ∧ (run w i).1.code = 0 ∧ (run w i).1.output = "é" ∧
      (run w j).1.code = 0 ∧ (run w j).2.read file = .ok "é" := by
  intro file text tree w request i j
  have named : file ≠ "-" := by decide
  have succeeds : (run w i).1.code = 0 := by decide +kernel
  have output : (run w i).1.output = "é" := by decide +kernel
  obtain ⟨_, code, reads, _⟩ := strip_in_place_agrees w i j named rfl rfl rfl succeeds
  exact ⟨named, succeeds, output, code, output ▸ reads⟩

end Command

end VisibilityRules
