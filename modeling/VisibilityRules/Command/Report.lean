import VisibilityRules.Command.World
import VisibilityRules.Content.Strip

set_option autoImplicit false

/-!
The commands that only look: each is a function of the world, and leaves it as it is.
-/
namespace VisibilityRules.Command

open Json (Value)

def badArguments {α : Type} (message : String) : Except Failure α := .error ⟨.badArguments, message⟩

def suggestion? (attributes : Attributes) : Option String :=
  match attributes.kind with
  | some _ => none
  | none => (Kind.suggest attributes.kindId).map Kind.id

def optionalMember (key : String) (value : Option String) : List (String × Value) :=
  value.toList.map fun s => (key, .text s)

def kindWarning (attributes : Attributes) : String :=
  match attributes.kind with
  | some _ => ""
  | none =>
    let unknown := "warning: unknown showfor '" ++ attributes.kindId ++ "'"
    match suggestion? attributes with
    | some id => Answer.line (unknown ++ ", did you mean '" ++ id ++ "'?")
    | none => Answer.line unknown

/-- The element that `check` decides on, if it has a name, and its attributes. -/
def Subject.resolve : Subject → Except Failure (Option String × Attributes)
  | .attributes text => .ok (none, Shortcode.readAttributes text)
  | .shortcode text =>
    match Shortcode.firstTag text with
    | none => badArguments "no shortcode found in --shortcode"
    | some (_, tag) =>
      let found := Shortcode.findAll tag text
      if found.isEmpty then badArguments ("unterminated shortcode [" ++ tag)
      else
        match found.find? fun o => !o.isEscaped with
        | none => badArguments ("shortcode [" ++ tag ++ "] is escaped and never evaluated")
        | some o => .ok (some tag, o.attributes)

def checkResult (element : Option String) (attributes : Attributes) (hidden : Bool) : Value :=
  .record (optionalMember "element" element ++
    [("showfor", .text attributes.kindId), ("known", .bool attributes.kind.isSome),
      ("filtered", .bool hidden)] ++
    optionalMember "suggestion" (suggestion? attributes))

def check (w : World) (mode : Mode) (asked : Option String) (subject : Subject) (exitCode : Bool)
    (request : RequestFlags) : Except Failure Answer := do
  let (element, attributes) ← subject.resolve
  let settings ← w.loadSettings asked
  let (policy, visitor) ← w.readRequest settings request
  let hidden := policy.hides attributes visitor
  let answer := Answer.ofMode mode (Answer.line (if hidden then "hidden" else "visible"))
    (checkResult element attributes hidden)
  .ok { answer with
    notes := if mode = .text then kindWarning attributes else ""
    verdict := .ok (if hidden && exitCode then .hidden else .success) }

structure Finding where
  occurrence : Shortcode.Occurrence
  -- The decision, unless the occurrence is literal text.
  hidden : Option Bool

namespace Finding

def attributes (f : Finding) : Attributes := f.occurrence.attributes

def toJson (f : Finding) : Value :=
  .record ([("start", .nat f.occurrence.start), ("end", .nat f.occurrence.stop),
    ("escaped", .bool f.occurrence.isEscaped),
    ("self_closing", .bool f.occurrence.isSelfClosing),
    ("attributes", Settings.mapToJson .text f.attributes),
    ("filtered", .orNull .bool f.hidden)] ++
    optionalMember "suggestion" (suggestion? f.attributes))

def decision (f : Finding) : String :=
  match f.hidden with
  | none => "escaped"
  | some true => "hidden"
  | some false => "visible"

end Finding

def padded (width : Nat) (text : String) : String :=
  text ++ String.ofList (List.replicate (width - text.length) ' ')

def Finding.lines (f : Finding) : List String :=
  ("  " ++ toString f.occurrence.start ++ ".." ++ toString f.occurrence.stop ++ "  " ++
    padded 8 f.decision ++ " " ++ f.attributes.render) ::
    (suggestion? f.attributes).toList.map fun id =>
      "    unknown showfor, did you mean '" ++ id ++ "'?"

def findings (policy : Policy) (visitor : Visitor) (element text : String) : List Finding :=
  (Shortcode.findAll element text).map fun o =>
    ⟨o, if o.isEscaped then none else some (policy.hides o.attributes visitor)⟩

def checkName (element : String) : Except Failure Unit :=
  match ElementName.problem? element with
  | none => .ok ()
  | some problem => badArguments problem

def scan (w : World) (mode : Mode) (asked : Option String) (element file : String)
    (request : RequestFlags) : Except Failure Answer := do
  checkName element
  let text ← w.readContent file
  let settings ← w.loadSettings asked
  let (policy, visitor) ← w.readRequest settings request
  let found := findings policy visitor element text
  let title := "[" ++ element ++ "] " ++ toString found.length ++ " occurrence(s)"
  .ok (.ofMode mode (Answer.lines (title :: found.flatMap Finding.lines))
    (.record [("tag", .text element), ("occurrences", .array (found.map Finding.toJson))]))

def render (w : World) (mode : Mode) (asked : Option String) (element attributes file : String)
    (request : RequestFlags) : Except Failure Answer := do
  let output ← w.readContent file
  let settings ← w.loadSettings asked
  let (policy, visitor) ← w.readRequest settings request
  let attributes := Shortcode.readAttributes attributes
  let hidden := Content.hidesOutput policy visitor settings.switches element attributes
  let result := Content.filterOutput policy visitor settings.switches element attributes output
  let checked := settings.switches.enabledState element = .enabled
  if mode = .json then
    .ok (.ofMode mode "" (.record [("element", .text element), ("checked", .bool checked),
      ("filtered", .bool hidden), ("output", .text result)]))
  else .ok (.ok result)

def encodeParameters (mode : Mode) (pairs : List String) : Answer :=
  let payload := Payload.encode (pairs.map Parameter.ofPair)
  .ofMode mode (Answer.line payload) (.record [("payload", .text payload)])

def itemList (items : List Value) : Value := .record [("items", .array items)]

def decodeParameters (mode : Mode) (payload : String) : Answer :=
  let parameters := Payload.decode payload
  .ofMode mode
    (Answer.lines (parameters.map fun p => p.name.getD "" ++ "=" ++ p.value.getD ""))
    (itemList (parameters.map Payload.toJson))

def devices (mode : Mode) (term : Option String) : Answer :=
  let groups := (term.map DeviceGroup.search).getD DeviceGroup.catalogue
  .ofMode mode (Answer.lines (groups.map fun g => "  " ++ padded 10 g.id ++ " " ++ g.title))
    (itemList (groups.map fun g => .record [("id", .text g.id), ("title", .text g.title)]))

def displaySettings (w : World) (asked : Option String) : Except Failure Answer := do
  .ok (.ok (Answer.line (← w.loadSettings asked).render))

def displayPath (w : World) (asked : Option String) : Answer :=
  .ok (Answer.line (w.environment.resolve asked))

def verify (w : World) (asked : Option String) : Answer :=
  -- The problems are printed in every mode, and they make the command fail.
  let path := w.environment.resolve asked
  match Settings.verify w.tree path with
  | .error e => .fail ⟨.badSettings, e.fullMessage⟩
  | .ok [] => .ok (Answer.line ("✓ Configuration is valid: " ++ path))
  | .ok problems =>
    let title := "✗ Configuration has " ++ toString problems.length ++ " error(s): " ++ path
    { output := Answer.lines (title :: "" :: problems.map ("  - " ++ ·))
      notes := ""
      verdict := .error ⟨.badSettings, "configuration validation failed"⟩ }

def completions (shell : Shell) : Answer :=
  let names := " ".intercalate commandNames
  .ok (Answer.line (match shell with
    | .bash => "complete -W \"" ++ names ++ "\" showfor"
    | .zsh => "compctl -k \"(" ++ names ++ ")\" showfor"
    | .fish => "complete -c showfor -f -a \"" ++ names ++ "\""))

end VisibilityRules.Command
