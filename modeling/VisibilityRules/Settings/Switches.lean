import VisibilityRules.Dictionary

set_option autoImplicit false

/-!
Two switches for every element: whether its rules are checked when it is rendered, and whether its
hidden occurrences are cut out of stored content. Switches hold words; a word that a switch does
not know leaves it in its default position.
-/
namespace VisibilityRules

inductive EnabledState where
  | disabled
  | default
  | enabled
  deriving DecidableEq, Repr

namespace EnabledState

def toInt : EnabledState → Int
  | disabled => -1
  | default => 0
  | enabled => 1

def word : EnabledState → String
  | disabled => "disabled"
  | default => "off"
  | enabled => "on"

end EnabledState

structure Switches where
  enabled : Dictionary String
  advanced : Dictionary String

namespace Switches

def empty : Switches := ⟨∅, ∅⟩

def isEmpty (s : Switches) : Bool := s.enabled.isEmpty && s.advanced.isEmpty

def enabledState (s : Switches) (element : String) : EnabledState :=
  match s.enabled[element]? with
  | some "on" => .enabled
  | some "disabled" => .disabled
  | _ => .default

def isAdvanced (s : Switches) (element : String) : Bool := s.advanced[element]? == some "on"

/-- The elements whose hidden occurrences are cut out, in the order of their names. -/
def advancedElements (s : Switches) : List String :=
  (s.advanced.toList.filter fun entry => entry.2 == "on").map (·.1)

def setEnabled (s : Switches) (element : String) (state : EnabledState) : Switches :=
  { s with enabled := s.enabled.insert element state.word }

def setAdvanced (s : Switches) (element : String) (on : Bool) : Switches :=
  { s with advanced := s.advanced.insert element (if on then "on" else "off") }

def fresh (elements : List String) : Switches :=
  -- Rules are checked for all the elements given, and nothing is cut out.
  elements.foldl (fun s element => (s.setEnabled element .enabled).setAdvanced element false) empty

end Switches

end VisibilityRules
