import VisibilityRules.Text.Split

set_option autoImplicit false

/-!
Paths as text. Slashes separate the names of a path; repeated ones count as one, and a dot names
the directory it stands in.
-/
namespace VisibilityRules.Path

def isAbsolute (path : String) : Bool := path.toList.head? == some '/'

def pieces (path : String) : List String := (Text.split '/' path.toList).map String.ofList

def names (path : String) : List String := (pieces path).filter (· ≠ "")

def steps (path : String) : List String := (names path).filter (· ≠ ".")

def fileName? (path : String) : Option String :=
  -- The last name, unless the path ends in a directory above it or has no names.
  (steps path).getLast?.filter (· ≠ "..")

def trim (pieces : List String) : List String :=
  (pieces.reverse.dropWhile fun piece => piece = "" ∨ piece = ".").reverse

/-- The directory that holds what the path leads to. It is written as in the path, so that what
leads nowhere within it still counts in its length. -/
def parent (path : String) : String :=
  match pieces path with
  | [] => ""
  | first :: later =>
    match trim later with
    | [] => if isAbsolute path then "/" else ""
    | way =>
      match trim way.dropLast with
      -- The first piece may be a dot: it then names the working directory.
      | [] => if isAbsolute path then "/" else first
      | above => "/".intercalate (first :: above)

/-- The path of a child under a base; an absolute child stands for itself. -/
def join (base child : String) : String :=
  if isAbsolute child then child
  else if base = "" ∨ base.toList.getLast? = some '/' then base ++ child
  else base ++ "/" ++ child

end VisibilityRules.Path
