import VisibilityRules.Json.Record
import VisibilityRules.Json.Text
import VisibilityRules.Settings.Switches

set_option autoImplicit false

/-!
The settings of a site, and the JSON document they are kept in.
-/
namespace VisibilityRules

structure Settings where
  switches : Switches
  -- Predicates that always give the same answer.
  predicates : Dictionary Bool

namespace Settings

open Json (Value)

def empty : Settings := ⟨.empty, ∅⟩

def mapToJson {α : Type} (encode : α → Value) (d : Dictionary α) : Value :=
  .record (d.toList.map fun (key, a) => (key, encode a))

def toJson (s : Settings) : Value :=
  -- Predicates are left out when there are none.
  let switches := Value.record
    [("enabled", mapToJson .text s.switches.enabled), ("advanced", mapToJson .text s.switches.advanced)]
  .record (("settings", switches) ::
    if s.predicates.isEmpty then [] else [("predicates", mapToJson .bool s.predicates)])

def render (s : Settings) : String := s.toJson.renderIndented

def mapOfJson? {α : Type} (read : Value → Option α) (v : Value) : Option (Dictionary α) :=
  -- Of two members with one key the later counts.
  (v.entries? read).map Dictionary.ofEntries

def switchesOfJson? (v : Value) : Option Switches :=
  if v.isRecord ["enabled", "advanced"] then do
    some ⟨← v.readField "enabled" 0 ∅ (mapOfJson? Value.text?),
      ← v.readField "advanced" 1 ∅ (mapOfJson? Value.text?)⟩
  else none

def ofJson? (v : Value) : Option Settings :=
  if v.isRecord ["settings", "predicates"] then do
    some ⟨← v.readField "settings" 0 .empty switchesOfJson?,
      ← v.readField "predicates" 1 ∅ (mapOfJson? Value.bool?)⟩
  else none

def ofText? (text : String) : Option Settings := (Value.ofText? text.toList).bind ofJson?

end Settings

end VisibilityRules
