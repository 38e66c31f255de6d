import Std.Data.ExtTreeMap
import VisibilityRules.Files.Path
import VisibilityRules.Text.Utf8

set_option autoImplicit false

/-!
A tree of files as one process sees it: paths start at the root or at the working directory and
are followed name by name.
-/
namespace VisibilityRules

inductive FileError where
  | notFound
  | alreadyExists
  | notDirectory
  | isDirectory
  | nameTooLong
  -- The path holds a NUL character.
  | nulInPath
  -- The content is not UTF-8.
  | notText
  deriving DecidableEq, Repr

namespace FileError

def message : FileError → String
  | notFound => "No such file or directory (os error 2)"
  | alreadyExists => "File exists (os error 17)"
  | notDirectory => "Not a directory (os error 20)"
  | isDirectory => "Is a directory (os error 21)"
  | nameTooLong => "File name too long (os error 36)"
  | nulInPath => "file name contained an unexpected NUL byte"
  | notText => "stream did not contain valid UTF-8"

end FileError

inductive Node where
  | file (bytes : List UInt8)
  | directory
  deriving DecidableEq, Repr

abbrev Location := List String

structure Tree where
  nodes : Std.ExtTreeMap Location Node
  working : Location

namespace Tree

def node? (t : Tree) (l : Location) : Option Node := if l = [] then some .directory else t.nodes[l]?

def put (t : Tree) (l : Location) (n : Node) : Tree := { t with nodes := t.nodes.insert l n }

def longestName : Nat := 255

def enter (t : Tree) (here : Location) (name : String) : Except FileError (Location × Node) :=
  if name = "." then .ok (here, .directory)
  else if name = ".." then .ok (here.dropLast, .directory)
  else if longestName < Text.Utf8.size name.toList then .error .nameTooLong
  else
    match t.node? (here ++ [name]) with
    | some n => .ok (here ++ [name], n)
    | none => .error .notFound

def walk (t : Tree) : Location → List String → Except FileError Location
  | here, [] => .ok here
  | here, name :: rest =>
    match t.enter here name with
    | .error e => .error e
    | .ok (there, .directory) => t.walk there rest
    | .ok (_, .file _) => .error .notDirectory

def origin (t : Tree) (path : String) : Location := if Path.isAbsolute path then [] else t.working

def longestPath : Nat := 4095

def check (path : String) : Except FileError Unit :=
  if path.toList.contains '\x00' then .error .nulInPath
  else if longestPath < Text.Utf8.size path.toList then .error .nameTooLong
  else if path = "" then .error .notFound
  else .ok ()

def endsInSlash (path : String) : Bool := path.toList.getLast? == some '/'

def find (t : Tree) (path : String) : Except FileError Node := do
  -- What a path leads to. A slash at the end asks for a directory.
  check path
  let here ← t.walk (t.origin path) (Path.names path).dropLast
  match (Path.names path).getLast? with
  | none => .ok .directory
  | some last =>
    match ← t.enter here last with
    -- A directory may be named with or without a slash.
    | (_, .directory) => .ok .directory
    | (_, .file bytes) => if endsInSlash path then .error .notDirectory else .ok (.file bytes)

def holds (t : Tree) (path : String) : Bool := (t.find path).isOk

def read (t : Tree) (path : String) : Except FileError String := do
  match ← t.find path with
  | .directory => .error .isDirectory
  | .file bytes =>
    match Text.Utf8.toString? bytes with
    | some text => .ok text
    | none => .error .notText

def target (t : Tree) (path : String) : Except FileError Location := do
  check path
  let here ← t.walk (t.origin path) (Path.names path).dropLast
  match (Path.names path).getLast? with
  | none => .error .isDirectory
  | some last =>
    if endsInSlash path then .error .isDirectory
    else
      match t.enter here last with
      | .ok (there, .file _) => .ok there
      | .ok (_, .directory) => .error .isDirectory
      | .error .notFound => .ok (here ++ [last])
      | .error e => .error e

def writeBytes (t : Tree) (path : String) (bytes : List UInt8) : Except FileError Tree :=
  (t.target path).map fun location => t.put location (.file bytes)

def write (t : Tree) (path content : String) : Except FileError Tree :=
  t.writeBytes path (Text.Utf8.ofString content)

def makeDirectory (t : Tree) (start : Location) (names : List String) : Except FileError Tree := do
  let here ← t.walk start names.dropLast
  match names.getLast? with
  | none => .error .alreadyExists
  | some last =>
    match t.enter here last with
    | .ok _ => .error .alreadyExists
    | .error .notFound => .ok (t.put (here ++ [last]) .directory)
    | .error e => .error e

def ensureDirectory (t : Tree) (start : Location) (names : List String) : Except FileError Tree :=
  match t.makeDirectory start names with
  | .ok made => .ok made
  | .error e => if (t.walk start names).isOk then .ok t else .error e

/-- Makes a directory and those above it that are missing, the names given last first. What has
been made stays when a later step fails. -/
def makeAll (t : Tree) (start : Location) : List String → Except FileError Unit × Tree
  | [] => (.ok (), t)
  | name :: above =>
    match t.ensureDirectory start (name :: above).reverse with
    | .ok made => (.ok (), made)
    -- Something above is missing: it comes first, and then this one again.
    | .error .notFound =>
      match t.makeAll start above with
      | (.error e, made) => (.error e, made)
      | (.ok (), made) =>
        match made.ensureDirectory start (name :: above).reverse with
        | .ok made => (.ok (), made)
        | .error e => (.error e, made)
    | .error e => (.error e, t)

def makeDirectories (t : Tree) (path : String) : Except FileError Unit × Tree :=
  if (Path.steps path).isEmpty then (.ok (), t)
  else
    match check path with
    | .error e => (.error e, t)
    | .ok () => t.makeAll (t.origin path) (Path.steps path).reverse

def makeParents (t : Tree) (path : String) : Except FileError Unit × Tree :=
  t.makeDirectories (Path.parent path)

end Tree

end VisibilityRules
