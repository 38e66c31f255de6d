import VisibilityRules.Settings.Document
import VisibilityRules.Settings.ElementName
import VisibilityRules.Text.LowerCase
import VisibilityRules.Text.Split
import VisibilityRules.Text.Truth

set_option autoImplicit false

/-!
Single settings under dotted keys: `settings.enabled.<element>`, `settings.advanced.<element>` and
`predicates.<name>`.
-/
namespace VisibilityRules

inductive EditError where
  | badElement (problem : String)
  | badValue (value : String)
  | unknownKey (key : String)
  deriving DecidableEq, Repr

namespace EditError

def message : EditError → String
  | badElement problem => problem
  | badValue value =>
    "Invalid boolean value: " ++ value ++ ". Use true/false, yes/no, 1/0, or on/off"
  | unknownKey key =>
    "Unknown config key: " ++ key ++ ". Valid keys: settings.enabled.<element>, " ++
      "settings.advanced.<element>, predicates.<name>"

end EditError

namespace Settings

inductive Key where
  | enabled (element : String)
  | advanced (element : String)
  | predicate (name : String)
  deriving DecidableEq, Repr

def Key.ofText? (key : String) : Option Key :=
  match (Text.split '.' key.toList).map String.ofList with
  | ["settings", "enabled", element] => some (.enabled element)
  | ["settings", "advanced", element] => some (.advanced element)
  | ["predicates", name] => if name = "" then none else some (.predicate name)
  | _ => none

def readTruth (value : String) : Except EditError Bool :=
  match Text.truth? value with
  | some b => .ok b
  | none => .error (.badValue value)

def readState (value : String) : Except EditError EnabledState :=
  if Text.lower value = "disabled" then .ok .disabled
  else (readTruth value).map fun on => if on then .enabled else .default

def checkElement (element : String) : Except EditError Unit :=
  match ElementName.problem? element with
  | none => .ok ()
  | some problem => .error (.badElement problem)

def set (s : Settings) (key value : String) : Except EditError Settings :=
  match Key.ofText? key with
  | some (.enabled element) => do
    checkElement element
    .ok { s with switches := s.switches.setEnabled element (← readState value) }
  | some (.advanced element) => do
    checkElement element
    .ok { s with switches := s.switches.setAdvanced element (← readTruth value) }
  | some (.predicate name) => do
    .ok { s with predicates := s.predicates.insert name (← readTruth value) }
  | none => .error (.unknownKey key)

end Settings

end VisibilityRules
