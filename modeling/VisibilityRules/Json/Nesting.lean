import VisibilityRules.Json.Token

set_option autoImplicit false

/-!
From tokens to a value, with the arrays and objects that are still open on a stack.
-/
namespace VisibilityRules.Json

/-- An open array with its items so far, or an open object that waits for the value of a key; the
latest come first. -/
inductive Frame where
  | items (before : List Value)
  | members (before : List (Option String × Value)) (key : Option String)

inductive Phase where
  | value
  -- The first item of the innermost array, or its end.
  | itemOrEnd
  | key (before : List (Option String × Value))
  | keyOrEnd
  | colon (before : List (Option String × Value)) (key : Option String)
  -- The continuation of what encloses a complete value.
  | after (v : Value)

structure State where
  phase : Phase
  frames : List Frame

def beginValue (frames : List Frame) : Token → Option State
  | .openArray => some ⟨.itemOrEnd, frames⟩
  | .openObject => some ⟨.keyOrEnd, frames⟩
  | .null => some ⟨.after .null, frames⟩
  | .bool b => some ⟨.after (.bool b), frames⟩
  | .number n => some ⟨.after (.number n), frames⟩
  | .string s => some ⟨.after (.string s), frames⟩
  | _ => none

def continueWith (v : Value) : List Frame → Token → Option State
  | .items before :: frames, .comma => some ⟨.value, .items (v :: before) :: frames⟩
  | .items before :: frames, .closeArray => some ⟨.after (.array (v :: before).reverse), frames⟩
  | .members before key :: frames, .comma => some ⟨.key ((key, v) :: before), frames⟩
  | .members before key :: frames, .closeObject =>
    some ⟨.after (.object ((key, v) :: before).reverse), frames⟩
  | _, _ => none

def step (s : State) (token : Token) : Option State :=
  match s.phase, token with
  | .value, token => beginValue s.frames token
  | .itemOrEnd, .closeArray => some ⟨.after (.array []), s.frames⟩
  | .itemOrEnd, token => beginValue (.items [] :: s.frames) token
  | .keyOrEnd, .closeObject => some ⟨.after (.object []), s.frames⟩
  | .keyOrEnd, .string key => some ⟨.colon [] key, s.frames⟩
  | .key before, .string key => some ⟨.colon before key, s.frames⟩
  | .colon before key, .colon => some ⟨.value, .members before key :: s.frames⟩
  | .after v, token => continueWith v s.frames token
  | _, _ => none

def run (s : State) : List Token → Option State
  | [] => some s
  | token :: rest => (step s token).bind fun s => run s rest

def ofTokens? (tokens : List Token) : Option Value :=
  match run ⟨.value, []⟩ tokens with
  | some ⟨.after v, []⟩ => some v
  | _ => none

end VisibilityRules.Json
