import VisibilityRules.Encoding.Base64
import VisibilityRules.Encoding.Percent
import VisibilityRules.Json.Record
import VisibilityRules.Json.Scalar
import VisibilityRules.Json.Text
import VisibilityRules.Rule.Parameter

set_option autoImplicit false

/-!
Lists of expected parameters as an attribute holds them: a JSON array of objects with a name and a
value, percent-encoded, in base 64. What is not of this form stands for no parameters at all.
-/
namespace VisibilityRules.Payload

open Json (Value)

def toJson (p : Parameter) : Value :=
  .record [("name", .orNull .text p.name), ("value", .orNull .text p.value)]

def encode (parameters : List Parameter) : String :=
  match parameters with
  | [] => ""
  | parameters =>
    let text := Json.print (.array (parameters.map toJson))
    let escaped := Percent.encode (Text.Utf8.encode text)
    String.ofList (Base64.encode (Text.Utf8.encode escaped))

/-- The text of a scalar, or `none` for a value that is no scalar: numbers in decimal, truth as 1
and falsehood as nothing. -/
def scalar? : Value → Option (Option String)
  | .null => some none
  | .bool b => some (some (if b then "1" else ""))
  | .number n => n.canonical?.map some
  | .string s => s.map some
  | _ => none

def ofJson? (v : Value) : Option Parameter :=
  -- A parameter is an object with a name and a value, or an array of the two.
  if v.isRecord ["name", "value"] then do
    some ⟨← v.readField "name" 0 none scalar?, ← v.readField "value" 1 none scalar?⟩
  else none

def listOfJson? : Value → Option (List Parameter)
  | .array items => items.mapM ofJson?
  | _ => none

def bytes? (payload : List Char) : Option (List UInt8) :=
  -- Reads base 64, blanks anywhere; where the padding is not the right one it counts for nothing.
  let letters := payload.filter fun c => !Text.isBlank c
  (Base64.decodePadded? letters).or (Base64.decode? (Base64.dropPadding letters))

def decode? (payload : List Char) : Option (List Parameter) := do
  let escaped := Text.Utf8.decodeLossy (← bytes? payload)
  let text ← Percent.decodeText? escaped
  listOfJson? (← Value.ofText? text)

def decode (payload : String) : List Parameter := (decode? payload.toList).getD []

end VisibilityRules.Payload
