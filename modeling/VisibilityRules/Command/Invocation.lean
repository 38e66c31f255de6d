import VisibilityRules.Command.Grammar
import VisibilityRules.Request.Flags

set_option autoImplicit false

/-!
The commands, their command lines, and how a command line is read as a command.
-/
namespace VisibilityRules.Command

inductive Shell where
  | bash
  | zsh
  | fish
  deriving DecidableEq, Repr

inductive Subject where
  | attributes (text : String)
  | shortcode (text : String)
  deriving DecidableEq, Repr

inductive SettingsAction where
  | display
  | path
  | create (elements : List String) (force : Bool)
  | set (key value : String)
  | verify
  deriving DecidableEq, Repr

inductive Action where
  | check (subject : Subject) (exitCode : Bool) (request : RequestFlags)
  | scan (element file : String) (request : RequestFlags)
  | strip (file : String) (elements : List String) (inPlace : Bool) (request : RequestFlags)
  | render (element attributes file : String) (request : RequestFlags)
  | encodeParameters (pairs : List String)
  | decodeParameters (payload : String)
  | devices (term : Option String)
  | settings (action : SettingsAction)
  | completions (shell : Shell)

inductive Mode where
  | text
  | json
  -- Only failures are reported.
  | quiet
  deriving DecidableEq, Repr

structure Invocation where
  settingsPath : Option String
  json : Bool
  noJson : Bool
  quiet : Bool
  action : Action

def Invocation.mode (i : Invocation) (onTerminal : Bool) : Mode :=
  -- Quiet wins over JSON, and JSON over text. Without any wish JSON is for programs.
  if i.quiet then .quiet
  else if i.json then .json
  else if i.noJson || onTerminal then .text
  else .json

/-! ### Grammars -/

def option (name : String) (takes : Takes) : Argument := ⟨name, none, takes⟩

def commonOptions : List Argument :=
  [option "config" (.one .path), ⟨"json", some 'j', .nothing⟩, option "no-json" .nothing,
   ⟨"quiet", some 'q', .nothing⟩, ⟨"help", some 'h', .request .help⟩]

def commonConflicts : List (String × String) := [("json", "no-json")]

def requestOptions : List Argument :=
  [option "user-id" (.one .number), option "role" (.many .text), option "query" (.many .text),
   option "url" (.one .text), option "now" (.one .text),
   option "device" (.one (.choice ["desktop", "phone", "tablet"])),
   option "user-agent" (.one .text), option "predicate" (.many .text)]

def requestConflicts : List (String × String) := [("device", "user-agent")]

def requestRequirements : List Requirement := [⟨some "role", ["user-id"]⟩]

def required (name : String) : Requirement := ⟨none, [name]⟩

def leaf (options positionals : List Argument) (conflicts : List (String × String))
    (requirements : List Requirement) : Grammar :=
  ⟨commonOptions ++ options, positionals, [], commonConflicts ++ conflicts, requirements⟩

def requestLeaf (options positionals : List Argument) (conflicts : List (String × String))
    (requirements : List Requirement) : Grammar :=
  leaf (options ++ requestOptions) positionals (conflicts ++ requestConflicts)
    (requirements ++ requestRequirements)

def branch (options : List Argument) (subcommands : List String) : Grammar :=
  ⟨commonOptions ++ options, [], subcommands ++ ["help"], commonConflicts, []⟩

def commandNames : List String :=
  ["check", "scan", "strip", "render", "encode-params", "decode-params", "devices", "config",
   "completions"]

def settingsCommandNames : List String := ["show", "path", "init", "set", "verify"]

def rootGrammar : Grammar := branch [⟨"version", some 'V', .request .version⟩] commandNames

def settingsGrammar : Grammar := branch [] settingsCommandNames

def checkGrammar : Grammar :=
  requestLeaf
    [option "attrs" (.one .text), option "shortcode" (.one .text), option "exit-code" .nothing] []
    [("attrs", "shortcode")] [⟨none, ["attrs", "shortcode"]⟩]

def scanGrammar : Grammar :=
  requestLeaf [] [option "tag" (.one .text), option "file" (.one .text)] [] [required "tag"]

def stripGrammar : Grammar :=
  requestLeaf [option "element" (.many .text), ⟨"in-place", some 'i', .nothing⟩]
    [option "file" (.one .text)] [] []

def renderGrammar : Grammar :=
  requestLeaf [option "attrs" (.one .text)]
    [option "element" (.one .text), option "file" (.one .text)] [] [required "element"]

def encodeGrammar : Grammar := leaf [] [option "pairs" (.many .text)] [] []

def decodeGrammar : Grammar := leaf [] [option "payload" (.one .text)] [] [required "payload"]

def devicesGrammar : Grammar := leaf [] [option "search" (.one .text)] [] []

def completionsGrammar : Grammar :=
  leaf [] [option "shell" (.one (.choice ["bash", "zsh", "fish"]))] [] [required "shell"]

def plainGrammar : Grammar := leaf [] [] [] []

def createGrammar : Grammar :=
  leaf [option "element" (.many .text), option "force" .nothing] [] [] [required "element"]

def setGrammar : Grammar :=
  leaf [] [option "key" (.one .text), option "value" (.one .text)] []
    [required "key", required "value"]

/-! ### Reading -/

namespace Given

def values (given : Given) (name : String) : List String := (given[name]?).getD []

def value? (given : Given) (name : String) : Option String := (values given name).head?

def value (given : Given) (name default : String) : String := (value? given name).getD default

end Given

def readDevice : String → Device
  | "phone" => .phone
  | "tablet" => .tablet
  | _ => .desktop

def readRequest (given : Given) : RequestFlags where
  userId := (Given.value? given "user-id").bind fun id => Text.unsigned? id.toList
  roles := Given.values given "role"
  query := Given.values given "query"
  url := Given.value? given "url"
  now := Given.value? given "now"
  device := (Given.value? given "device").map readDevice
  userAgent := Given.value? given "user-agent"
  predicates := Given.values given "predicate"

def readShell : String → Shell
  | "zsh" => .zsh
  | "fish" => .fish
  | _ => .bash

/-- A command as it is read: what was given on each level, the innermost first. -/
structure Reading where
  levels : List Given
  action : Action

def readLeaf (g : Grammar) (build : Given → Action) (words : List String) :
    Except Usage Reading := do
  let (p, _) ← g.read .start words
  let given ← g.finish p false
  .ok ⟨[given], build given⟩

def readCheck (given : Given) : Action :=
  let subject :=
    match Given.value? given "attrs" with
    | some text => .attributes text
    | none => .shortcode (Given.value given "shortcode" "")
  .check subject (given.contains "exit-code") (readRequest given)

def readHelp : List String → Usage
  -- The words of `help` name a command and perhaps one of its subcommands.
  | [] => .help
  | ["config"] => .help
  | ["config", name] =>
    if name = "help" ∨ settingsCommandNames.contains name then .help else .invalidSubcommand
  | [name] => if name = "help" ∨ commandNames.contains name then .help else .invalidSubcommand
  | _ => .invalidSubcommand

def readSettingsHelp : List String → Usage
  | [] => .help
  | [name] =>
    if name = "help" ∨ settingsCommandNames.contains name then .help else .invalidSubcommand
  | _ => .invalidSubcommand

def readSettingsAction (name : String) (words : List String) : Except Usage Reading :=
  match name with
  | "show" => readLeaf plainGrammar (fun _ => .settings .display) words
  | "path" => readLeaf plainGrammar (fun _ => .settings .path) words
  | "init" =>
    readLeaf createGrammar (fun given =>
      .settings (.create (Given.values given "element") (given.contains "force"))) words
  | "set" =>
    readLeaf setGrammar (fun given =>
      .settings (.set (Given.value given "key" "") (Given.value given "value" ""))) words
  | "verify" => readLeaf plainGrammar (fun _ => .settings .verify) words
  | _ => .error (readSettingsHelp words)

def readBranch (g : Grammar) (next : String → List String → Except Usage Reading)
    (words : List String) : Except Usage Reading := do
  match ← g.read .start words with
  | (p, some (name, rest)) =>
    let reading ← next name rest
    -- The outer level is complete only when the inner one is.
    let given ← g.finish p true
    .ok { reading with levels := reading.levels ++ [given] }
  | (p, none) =>
    let _ ← g.finish p false
    .error .missingSubcommand

def readAction (name : String) (words : List String) : Except Usage Reading :=
  match name with
  | "check" => readLeaf checkGrammar readCheck words
  | "scan" =>
    readLeaf scanGrammar (fun given =>
      .scan (Given.value given "tag" "") (Given.value given "file" "-") (readRequest given)) words
  | "strip" =>
    readLeaf stripGrammar (fun given =>
      .strip (Given.value given "file" "-") (Given.values given "element")
        (given.contains "in-place") (readRequest given)) words
  | "render" =>
    readLeaf renderGrammar (fun given =>
      .render (Given.value given "element" "") (Given.value given "attrs" "")
        (Given.value given "file" "-") (readRequest given)) words
  | "encode-params" =>
    readLeaf encodeGrammar (fun given => .encodeParameters (Given.values given "pairs")) words
  | "decode-params" =>
    readLeaf decodeGrammar (fun given => .decodeParameters (Given.value given "payload" "")) words
  | "devices" => readLeaf devicesGrammar (fun given => .devices (Given.value? given "search")) words
  | "config" => readBranch settingsGrammar readSettingsAction words
  | "completions" =>
    readLeaf completionsGrammar (fun given =>
      .completions (readShell (Given.value given "shell" ""))) words
  | _ => .error (readHelp words)

def Invocation.read (words : List String) : Except Usage Invocation := do
  -- Reads a command line. Of a common option the innermost value counts.
  let reading ← readBranch rootGrammar readAction words
  let anyGiven (name : String) : Bool := reading.levels.any (·.contains name)
  .ok {
    settingsPath := reading.levels.findSome? fun given => Given.value? given "config"
    json := anyGiven "json"
    noJson := anyGiven "no-json"
    quiet := anyGiven "quiet"
    action := reading.action }

end VisibilityRules.Command
