import VisibilityRules.Calendar.Layout
import VisibilityRules.Device.UserAgent
import VisibilityRules.Request.QueryString
import VisibilityRules.Rule.Policy
import VisibilityRules.Text.Truth

set_option autoImplicit false

/-!
A request described by the flags of a command.
-/
namespace VisibilityRules

inductive RequestError where
  | badQuery (flag : String)
  | badTime (text : String)
  | badPredicate (flag : String)
  deriving DecidableEq, Repr

namespace RequestError

def message : RequestError → String
  | badQuery flag => "invalid --query '" ++ flag ++ "': expected name=value"
  | badTime text =>
    "invalid --now '" ++ text ++ "': expected YYYY-MM-DD HH:MM[:SS] or YYYY/MM/DD HH:MM[:SS]"
  | badPredicate flag =>
    "invalid --predicate '" ++ flag ++ "': expected name or name=true|false"

end RequestError

structure RequestFlags where
  -- The id of the user; 0 stands for a visitor who is not logged in.
  userId : Option Nat
  roles : List String
  -- Query parameters as `name=value`; they override those of the URL.
  query : List String
  url : Option String
  now : Option String
  device : Option Device
  userAgent : Option String
  -- Predicates as `name` or `name=true`.
  predicates : List String

namespace RequestFlags

def time (flags : RequestFlags) (current : Calendar.Instant) :
    Except RequestError Calendar.Instant :=
  match flags.now with
  | none => .ok current
  | some text =>
    match Calendar.readTime? (Text.trimChars text.toList) with
    | some t => .ok t
    | none => .error (.badTime (Text.trim text))

def user (flags : RequestFlags) : Option User :=
  (flags.userId.filter (· ≠ 0)).map fun id => ⟨id, flags.roles⟩

def setParameter (query : Query) (flag : String) : Except RequestError Query :=
  match Text.splitOnce '=' flag.toList with
  | some (c :: name, value) =>
    .ok (query.insert (String.ofList (c :: name)) (String.ofList value))
  | _ => .error (.badQuery flag)

def parameters (flags : RequestFlags) : Except RequestError Query :=
  flags.query.foldlM setParameter ((flags.url.map QueryString.read).getD ∅)

def requestingDevice (flags : RequestFlags) : Device :=
  flags.device.getD ((flags.userAgent.map UserAgent.classify).getD .desktop)

def visitor (flags : RequestFlags) (current : Calendar.Instant) : Except RequestError Visitor := do
  -- The visitor whom the flags describe, at the current time unless they name one.
  let now ← flags.time current
  .ok ⟨flags.user, ← flags.parameters, now.wholeSecond, flags.requestingDevice⟩

def readPredicate (flag : String) : Except RequestError (String × Bool) :=
  -- The name and the answer of a predicate; without an answer it is yes.
  let (name, answer) :=
    match Text.splitOnce '=' flag.toList with
    | some (name, value) => (String.ofList name, Text.truth? (String.ofList value))
    | none => (flag, some true)
  match answer with
  | some answer => if name = "" then .error (.badPredicate flag) else .ok (name, answer)
  | none => .error (.badPredicate flag)

def answers (flags : RequestFlags) (given : Dictionary Bool) :
    Except RequestError (Dictionary Bool) :=
  -- Predicates that always give the same answer, the flags' own over the given ones.
  flags.predicates.foldlM
    (fun d flag => (readPredicate flag).map fun (name, answer) => d.insert name answer) given

def policy (flags : RequestFlags) (given : Dictionary Bool) : Except RequestError Policy :=
  (flags.answers given).map fun answers => .ofPredicates (answers.map fun _ answer _ => answer)

end RequestFlags

end VisibilityRules
