import VisibilityRules.Dictionary
import VisibilityRules.Text.Digit
import VisibilityRules.Text.Split

set_option autoImplicit false

/-!
Command lines. A grammar lists the options, the positional arguments and the subcommands of one
command. Words are read from left to right up to the name of a subcommand, whose own grammar reads
the rest. The values of an argument are checked when the next argument begins.
-/
namespace VisibilityRules.Command

inductive Usage where
  | unknownArgument
  | invalidSubcommand
  | missingSubcommand
  | missingRequiredArgument
  | argumentConflict
  | invalidValue
  | valueValidation
  | tooManyValues
  | helpForMissing
  | help
  | version
  deriving DecidableEq, Repr

inductive Domain where
  | text
  -- Text that is not empty.
  | path
  -- A natural number that fits a word of 64 bits.
  | number
  | choice (words : List String)
  deriving DecidableEq, Repr

def Domain.check (value : String) : Domain → Except Usage Unit
  | .text => .ok ()
  | .path => if value = "" then .error .invalidValue else .ok ()
  | .number =>
    if ((Text.unsigned? value.toList).filter (· < 0x10000000000000000)).isSome then .ok ()
    else .error .valueValidation
  | .choice words => if words.contains value then .ok () else .error .invalidValue

inductive Takes where
  | nothing
  | one (d : Domain)
  -- A value; the argument may be repeated.
  | many (d : Domain)
  -- Nothing: the argument asks for something else than the command.
  | request (u : Usage)
  deriving DecidableEq, Repr

structure Argument where
  name : String
  -- The letter that stands for the name.
  letter : Option Char
  takes : Takes
  deriving DecidableEq, Repr

/-- One of the arguments must be given, always or if another one is. -/
structure Requirement where
  whenGiven : Option String
  anyOf : List String
  deriving DecidableEq, Repr

structure Grammar where
  options : List Argument
  positionals : List Argument
  subcommands : List String
  -- Pairs of options that exclude each other.
  conflicts : List (String × String)
  requirements : List Requirement

abbrev Given := Dictionary (List String)

structure Progress where
  given : Given
  -- The argument that has been read last, its values unchecked.
  pending : Option (String × List String)
  -- The pending argument still lacks its value.
  wantsValue : Bool
  -- The number of positional arguments that are complete.
  position : Nat
  -- Two hyphens have been read.
  onlyPositionals : Bool

namespace Progress

def start : Progress := ⟨∅, none, false, 0, false⟩

end Progress

namespace Grammar

def argument? (g : Grammar) (name : String) : Option Argument :=
  (g.options ++ g.positionals).find? (·.name = name)

def accept (g : Grammar) (given : Given) (name : String) (values : List String) :
    Except Usage Given :=
  match (g.argument? name).map Argument.takes with
  | none => .error .unknownArgument
  | some (.request u) => .error u
  | some .nothing =>
    if given.contains name then .error .argumentConflict else .ok (given.insert name [])
  | some (.one d) =>
    if values.isEmpty then .error .invalidValue
    else if given.contains name then .error .argumentConflict
    else do
      values.forM fun value => d.check value
      .ok (given.insert name values)
  | some (.many d) =>
    if values.isEmpty then .error .invalidValue
    else do
      values.forM fun value => d.check value
      .ok (given.insert name ((given[name]?).getD [] ++ values))

def settle (g : Grammar) (p : Progress) : Except Usage Progress :=
  match p.pending with
  | none => .ok p
  | some (name, values) =>
    (g.accept p.given name values).map fun given =>
      { p with given, pending := none, wantsValue := false }

def give (g : Grammar) (p : Progress) (name : String) (values : List String) :
    Except Usage Progress := do
  let p ← g.settle p
  .ok { p with given := ← g.accept p.given name values }

def takesValue (a : Argument) : Bool :=
  match a.takes with
  | .one _ | .many _ => true
  | _ => false

def readLong (g : Grammar) (p : Progress) (word : List Char) : Except Usage Progress :=
  let (name, attached) :=
    match Text.splitOnce '=' word with
    | some (name, value) => (String.ofList name, some (String.ofList value))
    | none => (String.ofList word, none)
  match g.options.find? (·.name = name) with
  | none => .error .unknownArgument
  | some a =>
    match takesValue a, attached with
    | true, some value => g.give p name [value]
    | true, none => do
      let p ← g.settle p
      .ok { p with pending := some (name, []), wantsValue := true }
    | false, some _ => .error .tooManyValues
    | false, none => g.give p name []

def readLetters (g : Grammar) (p : Progress) : List Char → Except Usage Progress
  | [] => .ok p
  | c :: rest =>
    match g.options.find? (·.letter = some c) with
    | none => .error .unknownArgument
    | some a => do g.readLetters (← g.give p a.name []) rest

def surplus (g : Grammar) (p : Progress) (word : String) : Usage :=
  if g.subcommands.isEmpty || (p.onlyPositionals && g.subcommands.contains word) then
    .unknownArgument
  else .invalidSubcommand

def readPositional (g : Grammar) (p : Progress) (word : String) : Except Usage Progress :=
  match g.positionals[p.position]? with
  | none => .error (g.surplus p word)
  | some a =>
    match a.takes, p.pending with
    -- A repeatable argument takes all words up to the next option.
    | .many _, some (name, values) =>
      if name = a.name then .ok { p with pending := some (name, values ++ [word]) }
      else do
        let p ← g.settle p
        .ok { p with pending := some (a.name, [word]) }
    | .many _, none => .ok { p with pending := some (a.name, [word]) }
    | _, _ => do
      let p ← g.settle p
      .ok { p with pending := some (a.name, [word]), position := p.position + 1 }

def readWord (g : Grammar) (p : Progress) (word : String) : Except Usage Progress :=
  if p.onlyPositionals then g.readPositional p word
  else
    match word.toList with
    | ['-', '-'] => .ok { p with onlyPositionals := true }
    | '-' :: '-' :: long => g.readLong p long
    | '-' :: c :: letters => g.readLetters p (c :: letters)
    | _ =>
      match p.wantsValue, p.pending with
      -- The value is checked when the next argument settles this one.
      | true, some (name, values) =>
        .ok { p with pending := some (name, values ++ [word]), wantsValue := false }
      | _, _ => g.readPositional p word

def beginsSubcommand (g : Grammar) (p : Progress) (word : String) : Bool :=
  !p.onlyPositionals && !p.wantsValue && g.subcommands.contains word

/-- Reads words up to a subcommand, and returns its name and the words after it. -/
def read (g : Grammar) (p : Progress) :
    List String → Except Usage (Progress × Option (String × List String))
  | [] => .ok (p, none)
  | word :: rest =>
    if g.beginsSubcommand p word then .ok (p, some (word, rest))
    else do g.read (← g.readWord p word) rest

def isMet (given : Given) (r : Requirement) : Bool :=
  !((r.whenGiven.map given.contains).getD true) || r.anyOf.any given.contains

def finish (g : Grammar) (p : Progress) (hasSubcommand : Bool) : Except Usage Given := do
  let given := (← g.settle p).given
  if !hasSubcommand && !g.subcommands.isEmpty then
    .error (if given.isEmpty then .helpForMissing else .missingSubcommand)
  else if g.conflicts.any fun (a, b) => given.contains a && given.contains b then
    .error .argumentConflict
  else if g.requirements.all (isMet given) then .ok given
  else .error .missingRequiredArgument

end Grammar

end VisibilityRules.Command
