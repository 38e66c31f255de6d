import VisibilityRules.Encoding.Percent
import VisibilityRules.Rule.Parameter

set_option autoImplicit false

/-!
The query parameters of a URL: pairs between its first question mark and the number sign after it.
-/
namespace VisibilityRules.QueryString

def decodePart (part : List Char) : String :=
  -- Plus signs stand for spaces, percent signs for bytes; what is then no text stays encoded.
  let spaced := part.map fun c => if c = '+' then ' ' else c
  String.ofList ((Percent.decodeText? spaced).getD spaced)

def readPair? (pair : List Char) : Option (String × String) :=
  -- The name and the value of a pair; a pair without a name counts for nothing.
  let (name, value) := (Text.splitOnce '=' pair).getD (pair, [])
  if decodePart name = "" then none else some (decodePart name, decodePart value)

def pairs (url : List Char) : List (String × String) :=
  match Text.splitOnce '?' url with
  | none => []
  | some (_, query) => (Text.split '&' (query.takeWhile (· ≠ '#'))).filterMap readPair?

def read (url : String) : Query :=
  -- Of two pairs with one name the later counts.
  Dictionary.ofEntries (pairs url.toList)

end VisibilityRules.QueryString
