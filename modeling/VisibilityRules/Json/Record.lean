import VisibilityRules.Json.Nesting

set_option autoImplicit false

/-!
Values read as records, maps and scalars. A record is an object with some of its fields as members,
or an array of its first fields.
-/
namespace VisibilityRules.Json

namespace Value

/-- The value has the form of a record with these fields: no field occurs twice, and every key is
text. Members of other names are allowed. -/
def isRecord (fields : List String) : Value → Bool
  | .object members =>
    members.all (fun m => m.1.isSome) &&
      fields.all fun field => members.countP (fun m => m.1 == some field) ≤ 1
  | .array items => items.length ≤ fields.length
  | _ => false

def field? (field : String) (position : Nat) : Value → Option Value
  | .object members => (members.find? fun m => m.1 == some field).map (·.2)
  | .array items => items[position]?
  | _ => none

def readField {α : Type} (field : String) (position : Nat) (default : α) (read : Value → Option α)
    (v : Value) : Option α :=
  match v.field? field position with
  | none => some default
  | some value => read value

def text? : Value → Option String
  | .string s => s
  | _ => none

def bool? : Value → Option Bool
  | .bool b => some b
  | _ => none

def entries? {α : Type} (read : Value → Option α) : Value → Option (List (String × α))
  | .object members => members.mapM fun (key, value) => do some (← key, ← read value)
  | _ => none

def ofText? (text : List Char) : Option Value := (lex? text).bind ofTokens?

end Value

end VisibilityRules.Json
