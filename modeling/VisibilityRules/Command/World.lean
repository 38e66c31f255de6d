import VisibilityRules.Command.Answer
import VisibilityRules.Settings.Storage

set_option autoImplicit false

/-!
What a command sees of the world around it.
-/
namespace VisibilityRules.Command

structure World where
  tree : Tree
  environment : Environment
  -- The bytes of the standard input.
  input : List UInt8
  -- The current local time.
  now : Calendar.Instant
  -- The output is a terminal.
  onTerminal : Bool

namespace World

def readContent (w : World) (file : String) : Except Failure String :=
  -- The content of a file; a hyphen stands for the standard input.
  if file = "-" then
    match Text.Utf8.toString? w.input with
    | some text => .ok text
    | none => .error ⟨.badContent, "failed to read stdin: " ++ FileError.notText.message⟩
  else
    match w.tree.read file with
    | .ok text => .ok text
    | .error e => .error ⟨.badContent, "failed to read " ++ file ++ ": " ++ e.message⟩

def loadSettings (w : World) (asked : Option String) : Except Failure Settings :=
  match Settings.load w.tree (w.environment.resolve asked) with
  | .ok settings => .ok settings
  | .error e => .error ⟨.badSettings, e.fullMessage⟩

def badRequest {α : Type} : Except RequestError α → Except Failure α
  | .ok a => .ok a
  | .error e => .error ⟨.badArguments, e.message⟩

def readRequest (w : World) (settings : Settings) (request : RequestFlags) :
    Except Failure (Policy × Visitor) := do
  let policy ← badRequest (request.policy settings.predicates)
  .ok (policy, ← badRequest (request.visitor w.now))

end World

end VisibilityRules.Command
