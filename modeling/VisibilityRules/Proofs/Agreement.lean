import VisibilityRules.Command.Run
import VisibilityRules.Proofs.Files
import VisibilityRules.Proofs.Reports
import VisibilityRules.Proofs.Strip

set_option autoImplicit false

/-!
The commands that apply the rules come to the same decisions: `scan` reports them, `strip` carries
them out, and `check` gives the first of them.
-/
namespace VisibilityRules.Command

open Shortcode (Occurrence findAll)
open Text.Utf8 (ofString)

/-- The settings can be read, and the flags of the request say what these two are. -/
def World.Understands (w : World) (asked : Option String) (request : RequestFlags)
    (policy : Policy) (visitor : Visitor) : Prop :=
  ∃ settings, w.loadSettings asked = .ok settings ∧
    w.readRequest settings request = .ok (policy, visitor)

section

variable {w : World} {i : Invocation} {mode : Mode} {asked : Option String}
  {request : RequestFlags} {policy : Policy} {visitor : Visitor} {element file text : String}

/-! ### The decisions on one text -/

def entries (policy : Policy) (visitor : Visitor) (element text : String) : List Entry :=
  (findings policy visitor element text).map Finding.entry

def entryOf (policy : Policy) (visitor : Visitor) (o : Occurrence) : Entry :=
  ⟨o.start, o.stop, o.isEscaped,
    if o.isEscaped then none else some (policy.hides o.attributes visitor)⟩

theorem entries_eq (policy : Policy) (visitor : Visitor) (element text : String) :
    entries policy visitor element text = (findAll element text).map (entryOf policy visitor) := by
  rw [entries, findings, List.map_map]
  rfl

theorem filtered_entryOf (o : Occurrence) :
    decide ((entryOf policy visitor o).filtered = some true) =
      Content.isHidden policy visitor o := by
  rw [entryOf, Content.isHidden]
  cases o.isEscaped <;> simp

theorem spans_filtered :
    ((entries policy visitor element text).filter (·.filtered = some true)).map Entry.span =
      (Content.hiddenIn policy visitor element text).map Occurrence.span := by
  rw [entries_eq, List.filter_map, List.map_map, Content.hiddenIn]
  simp only [Function.comp_def, filtered_entryOf]
  rfl

theorem find_entries :
    (entries policy visitor element text).find? (fun entry => !entry.escaped) =
      ((findAll element text).find? fun o => !o.isEscaped).map (entryOf policy visitor) := by
  rw [entries_eq, List.find?_map]
  rfl

/-! ### The commands -/

theorem resolve_some {o : Occurrence}
    (named : (Shortcode.firstTag text).map (·.2) = some element)
    (live : (findAll element text).find? (fun o => !o.isEscaped) = some o) :
    (Subject.shortcode text).resolve = .ok (some element, o.attributes) := by
  obtain ⟨⟨position, tag⟩, first, rfl⟩ := Option.map_eq_some_iff.mp named
  have nonempty : (findAll tag text).isEmpty = false := by
    have mem := List.mem_of_find?_eq_some live
    cases found : findAll tag text with
    | nil => simp [found] at mem
    | cons o later => rfl
  simp [Subject.resolve, first, nonempty, live]

theorem resolve_none (named : (Shortcode.firstTag text).map (·.2) = some element)
    (literal : (findAll element text).find? (fun o => !o.isEscaped) = none) :
    ∃ message, (Subject.shortcode text).resolve = badArguments message := by
  obtain ⟨⟨position, tag⟩, first, rfl⟩ := Option.map_eq_some_iff.mp named
  by_cases empty : (findAll tag text).isEmpty
  next => exact ⟨_, by simp only [Subject.resolve, first, empty, if_true]; rfl⟩
  next => exact ⟨_, by simp only [Subject.resolve, first, if_neg empty, literal]; rfl⟩

theorem advancedElements_setAdvanced (element : String) :
    (Switches.empty.setAdvanced element true).advancedElements = [element] := by
  let advanced : Dictionary String := (∅ : Dictionary String).insert element "on"
  have single : advanced.toList.length = 1 := by
    simp [advanced, Std.ExtTreeMap.length_toList, Std.ExtTreeMap.size_insert]
  have mem : (element, "on") ∈ advanced.toList :=
    Std.ExtTreeMap.mem_toList_iff_getElem?_eq_some.mpr Std.ExtTreeMap.getElem?_insert_self
  obtain ⟨entry, whole⟩ := List.length_eq_one_iff.mp single
  rw [whole, List.mem_singleton] at mem
  have switched : (Switches.empty.setAdvanced element true).advanced.toList = [(element, "on")] :=
    whole.trans (by rw [mem])
  rw [Switches.advancedElements, switched]
  rfl

section

variable (understood : w.Understands asked request policy visitor)
include understood

theorem scan_understood (mode : Mode) (valid : ElementName.problem? element = none)
    (content : w.readContent file = .ok text) :
    ∃ lines, scan w mode asked element file request =
      .ok (.ofMode mode lines (.record [("tag", .text element),
        ("occurrences", .array ((findings policy visitor element text).map Finding.toJson))])) := by
  obtain ⟨settings, loaded, read⟩ := understood
  simp only [scan, checkName, valid, content, loaded, read, ok_bind]
  exact ⟨_, rfl⟩

theorem strip_understood (mode : Mode) (valid : ElementName.problem? element = none)
    (content : w.readContent file = .ok text) :
    ∃ notes, (strip w mode asked file [element] false request).1 =
      ⟨Content.strip policy visitor element text, notes, .ok .success⟩ := by
  obtain ⟨settings, loaded, read⟩ := understood
  let plan : StripPlan := ⟨Switches.empty.setAdvanced element true, policy, visitor⟩
  have switches : stripSwitches settings [element] = .ok plan.switches := by
    have checked : [element].forM checkName = .ok () := by
      have named : checkName element = .ok () := by rw [checkName, valid]
      rw [List.forM_eq_forM, List.forM_cons, named, ok_bind]
      rfl
    rw [stripSwitches, if_neg (by simp), checked]
    rfl
  have planned : planStrip w asked file [element] false request = .ok plan := by
    rw [planStrip, if_neg (by simp)]
    simp only [loaded, switches, read, ok_bind]
    rfl
  have stripped : plan.printStripped w file =
      .ok (.ok (Content.strip policy visitor element text)) := by
    simp only [StripPlan.printStripped, content, ok_bind, Content.stripAdvanced, plan,
      advancedElements_setAdvanced, List.foldl_cons, List.foldl_nil]
  simp only [strip, planned, stripped, Bool.false_eq_true, if_false]
  exact ⟨_, rfl⟩

theorem check_understood {o : Occurrence} (mode : Mode) (exitCode : Bool)
    (resolved : (Subject.shortcode text).resolve = .ok (some element, o.attributes)) :
    ∃ decision notes, check w mode asked (.shortcode text) exitCode request =
      .ok { Answer.ofMode mode decision
          (checkResult (some element) o.attributes (policy.hides o.attributes visitor)) with
        notes
        verdict := .ok (if policy.hides o.attributes visitor && exitCode then .hidden
          else .success) } := by
  obtain ⟨settings, loaded, read⟩ := understood
  simp only [check, resolved, loaded, read, ok_bind]
  exact ⟨_, _, rfl⟩

/-! ### Running them -/

variable (asks : i.settingsPath = asked)
include asks

theorem run_scan (action : i.action = .scan element file request)
    (valid : ElementName.problem? element = none) (content : w.readContent file = .ok text) :
    (run w i).1.code = 0 ∧ (i.mode w.onTerminal = .json →
      scanned? (run w i).1.output = some (entries policy visitor element text)) := by
  obtain ⟨lines, answered⟩ := scan_understood understood (i.mode w.onTerminal) valid content
  have ending : (run w i).1 = (Answer.ofMode (i.mode w.onTerminal) lines (.record
      [("tag", .text element), ("occurrences",
        .array ((findings policy visitor element text).map Finding.toJson))])).ending
          (i.mode w.onTerminal) := by
    simp only [run, action, asks, runAction, answered, answerOf]
  obtain ⟨code, output⟩ := ending_of_ok (verdict_ofMode ..) _
  rw [ending, code, output]
  refine ⟨rfl, fun json => ?_⟩
  rw [json]
  exact scanned_report lines element (findings policy visitor element text)

theorem run_strip (action : i.action = .strip file [element] false request)
    (valid : ElementName.problem? element = none) (content : w.readContent file = .ok text) :
    (run w i).1.code = 0 ∧ (run w i).1.output = Content.strip policy visitor element text := by
  obtain ⟨notes, answered⟩ := strip_understood understood (i.mode w.onTerminal) valid content
  have ending : (run w i).1 = (⟨Content.strip policy visitor element text, notes,
      .ok .success⟩ : Answer).ending (i.mode w.onTerminal) := by
    simp only [run, action, asks, runAction, answered]
  rw [ending]
  exact ⟨rfl, rfl⟩

omit understood in
theorem run_check_none {exitCode : Bool}
    (action : i.action = .check (.shortcode text) exitCode request)
    (named : (Shortcode.firstTag text).map (·.2) = some element)
    (literal : (findAll element text).find? (fun o => !o.isEscaped) = none) :
    (run w i).1.code = 2 := by
  obtain ⟨message, refused⟩ := resolve_none named literal
  have answered : check w (i.mode w.onTerminal) asked (.shortcode text) exitCode request =
      badArguments message := by
    rw [check, refused]
    rfl
  have ending : (run w i).1 =
      (Answer.fail ⟨.badArguments, message⟩).ending (i.mode w.onTerminal) := by
    simp only [run, action, asks, runAction, answered, answerOf, badArguments]
  rw [ending, code_of_error rfl]
  rfl

theorem run_check_some {exitCode : Bool} {o : Occurrence}
    (action : i.action = .check (.shortcode text) exitCode request)
    (named : (Shortcode.firstTag text).map (·.2) = some element)
    (live : (findAll element text).find? (fun o => !o.isEscaped) = some o) :
    (run w i).1.code =
        (if policy.hides o.attributes visitor && exitCode then 5 else 0) ∧
      (i.mode w.onTerminal = .json →
        decided? (run w i).1.output = some (policy.hides o.attributes visitor)) := by
  obtain ⟨decision, notes, answered⟩ :=
    check_understood understood (i.mode w.onTerminal) exitCode (resolve_some named live)
  have ending : (run w i).1 = ({ Answer.ofMode (i.mode w.onTerminal) decision
        (checkResult (some element) o.attributes (policy.hides o.attributes visitor)) with
      notes
      verdict := .ok (if policy.hides o.attributes visitor && exitCode then .hidden
        else .success) } : Answer).ending (i.mode w.onTerminal) := by
    simp only [run, action, asks, runAction, answered, answerOf]
  rw [ending]
  constructor
  · show ExitCode.toNat _ = _
    split <;> rfl
  · intro json
    rw [json]
    exact decided_report decision (some element) o.attributes _

end

end

/-- What `strip` deletes are the spans that `scan` reports as filtered. For a text whose first tag
is of the element, `check` gives the decision of the first entry that is not literal text, and it
refuses the text just if there is none. -/
theorem commands_agree (w : World) (asked : Option String) (request : RequestFlags)
    (policy : Policy) (visitor : Visitor) (element file text : String)
    (valid : ElementName.problem? element = none) (content : w.readContent file = .ok text)
    (understood : w.Understands asked request policy visitor) :
    ∃ entries : List Entry,
      (∀ i : Invocation, i.settingsPath = asked → i.action = .scan element file request →
        (run w i).1.code = 0 ∧
          (i.mode w.onTerminal = .json → scanned? (run w i).1.output = some entries)) ∧
      (∀ i : Invocation, i.settingsPath = asked →
        i.action = .strip file [element] false request →
          (run w i).1.code = 0 ∧
            ofString (run w i).1.output = Shortcode.outside
              ((entries.filter (·.filtered = some true)).map Entry.span) 0 (ofString text)) ∧
      ((Shortcode.firstTag text).map (·.2) = some element →
        ∀ (i : Invocation) (exitCode : Bool), i.settingsPath = asked →
          i.action = .check (.shortcode text) exitCode request →
            ((run w i).1.code = 2 ↔ ∀ entry ∈ entries, entry.escaped = true) ∧
            ∀ entry, entries.find? (fun entry => !entry.escaped) = some entry →
              ∃ hidden, entry.filtered = some hidden ∧
                (run w i).1.code = (if hidden && exitCode then 5 else 0) ∧
                (i.mode w.onTerminal = .json → decided? (run w i).1.output = some hidden)) := by
  refine ⟨entries policy visitor element text, ?_, ?_, ?_⟩
  · intro i asks action
    exact run_scan understood asks action valid content
  · intro i asks action
    obtain ⟨code, output⟩ := run_strip understood asks action valid content
    refine ⟨code, ?_⟩
    rw [output, Content.ofString_strip, spans_filtered]
  · intro named i exitCode asks action
    -- What `check` decides on is found in the same list that `scan` reports from.
    cases live : (findAll element text).find? fun o => !o.isEscaped with
    | none =>
      have missing : (entries policy visitor element text).find? (fun entry => !entry.escaped) =
          none := by rw [find_entries, live, Option.map_none]
      refine ⟨iff_of_true (run_check_none asks action named live) ?_, ?_⟩
      · simpa using missing
      · simp [missing]
    | some o =>
      have first : (entries policy visitor element text).find? (fun entry => !entry.escaped) =
          some (entryOf policy visitor o) := by rw [find_entries, live, Option.map_some]
      have open_tag : o.isEscaped = false := by simpa using List.find?_some live
      obtain ⟨code, decided⟩ := run_check_some understood asks action named live
      refine ⟨iff_of_false ?_ ?_, ?_⟩
      · rw [code]
        split <;> decide
      · intro literal
        have := literal _ (List.mem_of_find?_eq_some first)
        simp [entryOf, open_tag] at this
      · intro entry reported
        obtain rfl := Option.some.inj (first.symm.trans reported)
        exact ⟨_, by simp [entryOf, open_tag], code, decided⟩

theorem commands_agree_literal_first :
    let text := "[[a/]] é [a showfor=logged_in/]b"
    let w : World := ⟨⟨∅, []⟩, ⟨"/home", "", none⟩, ofString text, ⟨0, 0⟩, false⟩
    let request : RequestFlags := ⟨none, [], [], none, none, none, none, []⟩
    let ending (action : Action) := (run w ⟨none, true, false, false, action⟩).1
    ElementName.problem? "a" = none ∧ w.readContent "-" = .ok text ∧
      w.Understands none request (.ofPredicates ∅) (.anonymous ⟨0, 0⟩) ∧
      ∃ entries, scanned? (ending (.scan "a" "-" request)).output = some entries ∧
        ofString (ending (.strip "-" ["a"] false request)).output = Shortcode.outside
          ((entries.filter (·.filtered = some true)).map Entry.span) 0 (ofString text) ∧
        ((ending (.check (.shortcode text) true request)).code = 2 ↔
          ∀ entry ∈ entries, entry.escaped = true) := by
  intro text w request ending
  have valid : ElementName.problem? "a" = none := by decide
  have content : w.readContent "-" = .ok text := by
    simp only [World.readContent, w, Text.Utf8.toString_ofString, if_true]
  have understood : w.Understands none request (.ofPredicates ∅) (.anonymous ⟨0, 0⟩) := by
    have missing : w.tree.holds (w.environment.resolve none) = false := by decide
    refine ⟨.empty, ?_, ?_⟩
    · rw [World.loadSettings, Settings.load, missing]
      rfl
    · rfl
  have named : (Shortcode.firstTag text).map (·.2) = some "a" := by decide
  obtain ⟨entries, scanned, stripped, checked⟩ := commands_agree w none request (.ofPredicates ∅)
    (.anonymous ⟨0, 0⟩) "a" "-" text valid content understood
  exact ⟨valid, content, understood, entries, (scanned _ rfl rfl).2 rfl, (stripped _ rfl rfl).2,
    (checked named _ true rfl rfl).1⟩

end VisibilityRules.Command
