import VisibilityRules.Settings.Verification

set_option autoImplicit false

/-!
What the check of the settings says about elements that are both disabled and advanced.
-/
namespace VisibilityRules

theorem Switches.mem_advancedElements {s : Switches} {element : String} :
    element ∈ s.advancedElements ↔ (element, "on") ∈ s.advanced.toList := by
  simp [advancedElements]

namespace Settings

def noEffect (element : String) : String :=
  "settings.advanced." ++ element ++ ": element is disabled, advanced mode has no effect"

theorem noEffect_inj {element element' : String} :
    noEffect element = noEffect element' ↔ element = element' := by
  unfold noEffect
  rw [String.append_left_inj, String.append_right_inj]

theorem getLast_append (front : String) {back : String} {c : Char}
    (ends : back.toList.getLast? = some c) : (front ++ back).toList.getLast? = some c := by
  rw [String.toList_append, List.getLast?_append, ends, Option.some_or]

theorem append_ne_noEffect (front element : String) {back : String} {c : Char}
    (ends : back.toList.getLast? = some c) (other : c ≠ 't') :
    front ++ back ≠ noEffect element := by
  intro same
  have last := getLast_append front ends
  have own : (noEffect element).toList.getLast? = some 't' := getLast_append _ (by simp)
  rw [same, own] at last
  exact other (Option.some.inj last).symm

theorem noEffect_not_mem_nameProblems (path name element : String) :
    noEffect element ∉ nameProblems path name := by
  intro mem
  obtain ⟨problem, found, same⟩ := List.mem_map.mp mem
  rw [Option.mem_toList, ElementName.problem?] at found
  split at found
  next =>
    obtain rfl := Option.some.inj found
    exact append_ne_noEffect _ element (by simp) (by decide : 'y' ≠ 't') same
  next =>
    obtain ⟨c, _, rfl⟩ := Option.map_eq_some_iff.mp found
    have ends := getLast_append
      ("invalid character '" ++ c.toString ++ "' in element name '" ++ name)
      (by decide : "'".toList.getLast? = some '\'')
    exact append_ne_noEffect _ element ends (by decide) same

theorem noEffect_not_mem_enabledProblems (entry : String × String) (element : String) :
    noEffect element ∉ enabledProblems entry := by
  obtain ⟨name, value⟩ := entry
  rw [enabledProblems, List.mem_append, not_or]
  refine ⟨noEffect_not_mem_nameProblems _ _ _, ?_⟩
  split
  next => exact List.not_mem_nil
  next =>
    intro mem
    exact append_ne_noEffect _ element (by simp) (by decide : 'd' ≠ 't')
      (List.mem_singleton.mp mem).symm

theorem noEffect_mem_advancedProblems {settings : Settings} {name value element : String} :
    noEffect element ∈ advancedProblems settings (name, value) ↔
      name = element ∧ value = "on" ∧ settings.switches.enabledState element = .disabled := by
  have unknown : noEffect element ∉
      (if ["on", "off"].contains value then []
        else ["settings.advanced." ++ name ++ ": invalid value '" ++ value ++
          "': use on or off"]) := by
    split
    next => exact List.not_mem_nil
    next =>
      intro mem
      exact append_ne_noEffect _ element (by simp) (by decide : 'f' ≠ 't')
        (List.mem_singleton.mp mem).symm
  rw [advancedProblems, List.mem_append, List.mem_append, or_iff_right]
  · split
    next both =>
      rw [List.mem_singleton]
      change noEffect element = noEffect name ↔ _
      rw [noEffect_inj]
      constructor
      · rintro rfl
        exact ⟨rfl, both⟩
      · exact fun same => same.1.symm
    next neither =>
      refine iff_of_false List.not_mem_nil ?_
      rintro ⟨rfl, both⟩
      exact neither both
  · exact not_or.mpr ⟨noEffect_not_mem_nameProblems _ _ _, unknown⟩

theorem noEffect_mem_problems {settings : Settings} {element : String} :
    noEffect element ∈ problems settings ↔
      element ∈ settings.switches.advancedElements ∧
        settings.switches.enabledState element = .disabled := by
  rw [problems, List.mem_append, or_iff_right, List.mem_flatMap, Switches.mem_advancedElements]
  · constructor
    · rintro ⟨⟨name, value⟩, mem, reported⟩
      obtain ⟨rfl, rfl, disabled⟩ := noEffect_mem_advancedProblems.mp reported
      exact ⟨mem, disabled⟩
    · rintro ⟨mem, disabled⟩
      exact ⟨_, mem, noEffect_mem_advancedProblems.mpr ⟨rfl, rfl, disabled⟩⟩
  · rw [List.mem_flatMap]
    rintro ⟨entry, _, reported⟩
    exact noEffect_not_mem_enabledProblems entry element reported

end Settings

end VisibilityRules
