import VisibilityRules.Proofs.Files
import VisibilityRules.Proofs.Verification
import VisibilityRules.Settings.Editing

set_option autoImplicit false

/-!
Edits keep settings valid: elements have the names of tags, and switches hold words that they know.
The check has nothing to say on valid settings but that an advanced element is disabled.
-/
namespace VisibilityRules

/-- The keys are names that elements can have, and the values are of the words given. -/
def Dictionary.Knows (words : List String) (d : Dictionary String) : Prop :=
  ∀ element word, d[element]? = some word → ElementName.problem? element = none ∧ word ∈ words

theorem Dictionary.Knows.insert {words : List String} {d : Dictionary String}
    {element word : String} (knows : Dictionary.Knows words d)
    (named : ElementName.problem? element = none) (known : word ∈ words) :
    Dictionary.Knows words (d.insert element word) := by
  intro other held found
  rw [Std.ExtTreeMap.getElem?_insert] at found
  split at found
  next same =>
    rw [← Std.LawfulEqCmp.compare_eq_iff_eq.mp same, ← Option.some.inj found]
    exact ⟨named, known⟩
  next => exact knows other held found

namespace Switches

structure Valid (s : Switches) : Prop where
  enabled : Dictionary.Knows ["on", "off", "disabled"] s.enabled
  advanced : Dictionary.Knows ["on", "off"] s.advanced

variable {s : Switches} {element : String}

theorem valid_empty : Switches.empty.Valid := by
  constructor
  all_goals
    intro element word found
    rw [empty, Std.ExtTreeMap.getElem?_empty] at found
    exact nomatch found

theorem Valid.setEnabled (valid : s.Valid) (named : ElementName.problem? element = none)
    (state : EnabledState) : (s.setEnabled element state).Valid := by
  have known : state.word ∈ ["on", "off", "disabled"] := by cases state <;> decide
  exact ⟨valid.enabled.insert named known, valid.advanced⟩

theorem Valid.setAdvanced (valid : s.Valid) (named : ElementName.problem? element = none)
    (on : Bool) : (s.setAdvanced element on).Valid := by
  have known : (if on then "on" else "off") ∈ ["on", "off"] := by cases on <;> decide
  exact ⟨valid.enabled, valid.advanced.insert named known⟩

theorem valid_fresh {elements : List String}
    (named : ∀ element ∈ elements, ElementName.problem? element = none) :
    (fresh elements).Valid := by
  have filled (s : Switches) (valid : s.Valid) : (elements.foldl (fun s element =>
      (s.setEnabled element .enabled).setAdvanced element false) s).Valid := by
    induction elements generalizing s with
    | nil => exact valid
    | cons element elements ih =>
      obtain ⟨first, others⟩ := List.forall_mem_cons.mp named
      exact ih others _ ((valid.setEnabled first .enabled).setAdvanced first false)
  exact filled empty valid_empty

theorem nodup_advancedElements (s : Switches) : s.advancedElements.Nodup := by
  rw [advancedElements, List.Nodup, List.pairwise_map]
  exact (Dictionary.distinct_toList s.advanced).filter _

theorem mem_advancedElements_iff : element ∈ s.advancedElements ↔ s.isAdvanced element = true := by
  rw [mem_advancedElements, Std.ExtTreeMap.mem_toList_iff_getElem?_eq_some, isAdvanced, beq_iff_eq]

/-- The advanced elements that are disabled. -/
def withoutEffect (s : Switches) : List String :=
  s.advancedElements.filter fun element => s.enabledState element = .disabled

theorem nodup_withoutEffect (s : Switches) : s.withoutEffect.Nodup :=
  List.Pairwise.filter _ s.nodup_advancedElements

theorem mem_withoutEffect : element ∈ s.withoutEffect ↔
    s.isAdvanced element = true ∧ s.enabledState element = .disabled := by
  rw [withoutEffect, List.mem_filter, mem_advancedElements_iff, decide_eq_true_eq]

end Switches

namespace Settings

variable {s edited : Settings}

theorem checkElement_eq_ok_iff {element : String} :
    checkElement element = .ok () ↔ ElementName.problem? element = none := by
  unfold checkElement
  split <;> simp_all

theorem valid_set (valid : s.switches.Valid) {key value : String}
    (done : s.set key value = .ok edited) : edited.switches.Valid := by
  unfold set at done
  split at done
  next element _ =>
    obtain ⟨_, checked, done⟩ := bind_eq_ok_iff.mp done
    obtain ⟨state, _, done⟩ := bind_eq_ok_iff.mp done
    rw [← Except.ok.inj done]
    exact valid.setEnabled (checkElement_eq_ok_iff.mp checked) state
  next element _ =>
    obtain ⟨_, checked, done⟩ := bind_eq_ok_iff.mp done
    obtain ⟨on, _, done⟩ := bind_eq_ok_iff.mp done
    rw [← Except.ok.inj done]
    exact valid.setAdvanced (checkElement_eq_ok_iff.mp checked) on
  next =>
    obtain ⟨on, _, done⟩ := bind_eq_ok_iff.mp done
    rw [← Except.ok.inj done]
    exact valid
  next => exact nomatch done

/-! ### What the check says -/

theorem nameProblems_of_named {element : String} (named : ElementName.problem? element = none)
    (path : String) : nameProblems path element = [] := by
  rw [nameProblems, named]
  rfl

theorem enabledProblems_of_valid (valid : s.switches.Valid) {entry : String × String}
    (mem : entry ∈ s.switches.enabled.toList) : enabledProblems entry = [] := by
  obtain ⟨named, known⟩ :=
    valid.enabled _ _ (Std.ExtTreeMap.mem_toList_iff_getElem?_eq_some.mp mem)
  rw [enabledProblems, nameProblems_of_named named, if_pos (List.contains_iff_mem.mpr known)]
  rfl

theorem advancedProblems_of_valid (valid : s.switches.Valid) {entry : String × String}
    (mem : entry ∈ s.switches.advanced.toList) :
    advancedProblems s entry =
      if entry.2 = "on" ∧ s.switches.enabledState entry.1 = .disabled then [noEffect entry.1]
      else [] := by
  obtain ⟨named, known⟩ :=
    valid.advanced _ _ (Std.ExtTreeMap.mem_toList_iff_getElem?_eq_some.mp mem)
  rw [advancedProblems, nameProblems_of_named named, if_pos (List.contains_iff_mem.mpr known)]
  rfl

/-- All that can be wrong with valid settings is that an advanced element is disabled. -/
theorem problems_of_valid (valid : s.switches.Valid) :
    s.problems = s.switches.withoutEffect.map noEffect := by
  have silent : s.switches.enabled.toList.flatMap enabledProblems = [] :=
    List.flatMap_eq_nil_iff.mpr fun entry mem => enabledProblems_of_valid valid mem
  have reported (entries : List (String × String))
      (each : ∀ entry ∈ entries, entry ∈ s.switches.advanced.toList) :
      entries.flatMap (advancedProblems s) =
        (((entries.filter fun entry => entry.2 == "on").map (·.1)).filter fun element =>
          s.switches.enabledState element = .disabled).map noEffect := by
    induction entries with
    | nil => rfl
    | cons entry entries ih =>
      obtain ⟨first, others⟩ := List.forall_mem_cons.mp each
      rw [List.flatMap_cons, advancedProblems_of_valid valid first, ih others]
      by_cases on : entry.2 = "on"
      next =>
        by_cases disabled : s.switches.enabledState entry.1 = .disabled
        next => simp [on, disabled]
        next => simp [on, disabled]
      next => simp [on]
  rw [problems, silent, List.nil_append, reported _ fun _ => id]
  rfl

end Settings

end VisibilityRules
