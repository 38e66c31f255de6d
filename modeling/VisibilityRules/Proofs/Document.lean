import VisibilityRules.Proofs.JsonText
import VisibilityRules.Settings.Document

set_option autoImplicit false

/-!
The document that settings are kept in reads back as the settings it was made from, whatever their
names and words are.
-/
namespace VisibilityRules

namespace Json.Value

@[simp] theorem isRecord_record (fields : List String) (members : List (String × Value)) :
    (record members).isRecord fields =
      fields.all fun field => members.countP (fun m => m.1 == field) ≤ 1 := by
  have named : (members.map fun m => (some m.1, m.2)).all (fun m => m.1.isSome) = true := by simp
  rw [record, isRecord, named, Bool.true_and]
  simp only [List.countP_map]
  rfl

@[simp] theorem field_record (field : String) (position : Nat) (members : List (String × Value)) :
    (record members).field? field position =
      (members.find? fun m => m.1 == field).map (·.2) := by
  rw [record, field?, List.find?_map, Option.map_map]
  rfl

end Json.Value

namespace Settings

open Json (Value isWritten_record)

section

variable {α : Type} {encode : α → Value} {read? : Value → Option α}

theorem isWritten_mapToJson (written : ∀ a, (encode a).IsWritten) (d : Dictionary α) :
    (mapToJson encode d).IsWritten := by
  refine isWritten_record fun member mem => ?_
  obtain ⟨entry, _, rfl⟩ := List.mem_map.mp mem
  exact written entry.2

theorem mapOfJson_mapToJson (each : ∀ a, read? (encode a) = some a) (d : Dictionary α) :
    mapOfJson? read? (mapToJson encode d) = some d := by
  have entries : (mapToJson encode d).entries? read? = some d.toList := by
    have member (entry : String × α) :
        (do some (← some entry.1, ← read? (encode entry.2))) = some (id entry) := by simp [each]
    rw [mapToJson, Value.record, Value.entries?, List.map_map]
    exact (Json.mapM_map member d.toList).trans (by rw [List.map_id])
  rw [mapOfJson?, entries, Option.map_some, Dictionary.ofEntries_toList]

end

theorem isWritten_texts (d : Dictionary String) : (mapToJson Value.text d).IsWritten :=
  isWritten_mapToJson (fun text => .string (some text)) d

theorem isWritten_toJson (s : Settings) : s.toJson.IsWritten := by
  have switches : (Value.record [("enabled", mapToJson .text s.switches.enabled),
      ("advanced", mapToJson .text s.switches.advanced)]).IsWritten := by
    apply isWritten_record
    simp only [List.forall_mem_cons]
    exact ⟨isWritten_texts _, isWritten_texts _, nofun⟩
  apply isWritten_record
  refine List.forall_mem_cons.mpr ⟨switches, ?_⟩
  split
  next => exact nofun
  next => exact List.forall_mem_singleton.mpr (isWritten_mapToJson .bool _)

theorem mapOfJson_texts (d : Dictionary String) :
    mapOfJson? Value.text? (mapToJson .text d) = some d :=
  mapOfJson_mapToJson (fun text => by rfl) d

theorem switchesOfJson_toJson (s : Switches) :
    switchesOfJson? (.record [("enabled", mapToJson .text s.enabled),
      ("advanced", mapToJson .text s.advanced)]) = some s := by
  simp [switchesOfJson?, Value.readField, mapOfJson_texts]

theorem ofJson_toJson (s : Settings) : ofJson? s.toJson = some s := by
  have switches := switchesOfJson_toJson s.switches
  unfold toJson
  split
  next none_held =>
    have empty : s.predicates = ∅ := Std.ExtTreeMap.isEmpty_iff.mp none_held
    simp [ofJson?, Value.readField, switches, ← empty]
  next =>
    have predicates : mapOfJson? Value.bool? (mapToJson .bool s.predicates) = some s.predicates :=
      mapOfJson_mapToJson (fun b => by rfl) s.predicates
    simp [ofJson?, Value.readField, switches, predicates]

theorem ofText_render (s : Settings) : ofText? s.render = some s := by
  have parsed : Value.ofText? s.render.toList = some s.toJson := by
    rw [render, Value.renderIndented, String.toList_ofList]
    exact Json.ofText_printIndented s.isWritten_toJson
  rw [ofText?, parsed, Option.bind_some, ofJson_toJson]

end Settings

end VisibilityRules
