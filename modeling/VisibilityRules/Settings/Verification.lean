import VisibilityRules.Settings.Document
import VisibilityRules.Settings.ElementName

set_option autoImplicit false

/-!
What is wrong with settings, entry by entry.
-/
namespace VisibilityRules.Settings

def nameProblems (path element : String) : List String :=
  (ElementName.problem? element).toList.map fun problem => path ++ element ++ ": " ++ problem

def enabledProblems : String × String → List String
  | (element, value) =>
    nameProblems "settings.enabled." element ++
      if ["on", "off", "disabled"].contains value then []
      else
        ["settings.enabled." ++ element ++ ": invalid value '" ++ value ++
          "': use on, off or disabled"]

def advancedProblems (s : Settings) : String × String → List String
  | (element, value) =>
    nameProblems "settings.advanced." element ++
      (if ["on", "off"].contains value then []
        else
          ["settings.advanced." ++ element ++ ": invalid value '" ++ value ++
            "': use on or off"]) ++
      if value = "on" ∧ s.switches.enabledState element = .disabled then
        ["settings.advanced." ++ element ++
          ": element is disabled, advanced mode has no effect"]
      else []

def problems (s : Settings) : List String :=
  s.switches.enabled.toList.flatMap enabledProblems ++
    s.switches.advanced.toList.flatMap (advancedProblems s)

end VisibilityRules.Settings
