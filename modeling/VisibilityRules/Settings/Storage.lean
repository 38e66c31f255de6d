import VisibilityRules.Files.Tree
import VisibilityRules.Settings.Document
import VisibilityRules.Settings.Verification

set_option autoImplicit false

/-!
Settings in a file. The file is the one asked for, else the one the environment names, else one in
the home directory.
-/
namespace VisibilityRules

structure Environment where
  -- The home directory as the environment gives it.
  home : String
  -- The home directory of the account, in place of an empty one.
  accountHome : String
  -- The settings file that the environment names.
  settingsPath : Option String
  deriving DecidableEq, Repr

namespace Environment

def homeDirectory (env : Environment) : String := if env.home = "" then env.accountHome else env.home

/-- Writes the home directory for a tilde that stands alone or in front of a slash. -/
def expandTilde (env : Environment) (path : String) : String :=
  match path.toList with
  | ['~'] => env.homeDirectory
  | '~' :: '/' :: rest => env.homeDirectory ++ String.ofList ('/' :: rest)
  | _ => path

def resolve (env : Environment) (asked : Option String) : String :=
  -- The path asked for wins over the environment.
  match asked.or env.settingsPath with
  | some path => env.expandTilde path
  | none => Path.join (Path.join env.homeDirectory ".showfor") "config.json"

end Environment

inductive SettingsError where
  | unreadable (path : String) (cause : FileError)
  | malformed (path : String)
  | missing (path : String)
  | uncheckable (path : String) (cause : FileError)
  | invalidJson
  | noDirectory (cause : FileError)
  | unwritable (path : String) (cause : FileError)
  deriving DecidableEq, Repr

namespace SettingsError

def message : SettingsError → String
  | unreadable path _ => "Failed to read config file: " ++ path
  | malformed path => "Failed to parse config file: " ++ path
  | missing path => "config file not found: " ++ path
  | uncheckable path _ => "failed to read config file: " ++ path
  | invalidJson => "invalid JSON"
  | noDirectory cause => cause.message
  | unwritable path _ => "Failed to write config file: " ++ path

def fullMessage (e : SettingsError) : String :=
  match e with
  | unreadable _ cause | uncheckable _ cause | unwritable _ cause =>
    e.message ++ ": " ++ cause.message
  | _ => e.message

end SettingsError

namespace Settings

def load (t : Tree) (path : String) : Except SettingsError Settings :=
  -- Reads settings; without a file they are empty.
  if !t.holds path then .ok .empty
  else
    match t.read path with
    | .error e => .error (.unreadable path e)
    | .ok text =>
      match ofText? text with
      | some s => .ok s
      | none => .error (.malformed path)

def save (s : Settings) (t : Tree) (path : String) : Except SettingsError Unit × Tree :=
  match t.makeParents path with
  | (.error e, made) => (.error (.noDirectory e), made)
  | (.ok (), made) =>
    match made.write path s.render with
    | .error e => (.error (.unwritable path e), made)
    | .ok written => (.ok (), written)

def verify (t : Tree) (path : String) : Except SettingsError (List String) :=
  if !t.holds path then .error (.missing path)
  else
    match t.read path with
    | .error e => .error (.uncheckable path e)
    | .ok text =>
      match ofText? text with
      | some s => .ok s.problems
      | none => .error .invalidJson

end Settings

end VisibilityRules
