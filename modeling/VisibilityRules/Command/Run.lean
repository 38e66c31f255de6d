import VisibilityRules.Command.Report
import VisibilityRules.Content.Post
import VisibilityRules.Settings.Editing

set_option autoImplicit false

/-!
Running commands. A command answers, and leaves a tree of files behind.
-/
namespace VisibilityRules.Command

open Json (Value)

def answerOf : Except Failure Answer → Answer
  | .ok answer => answer
  | .error failure => .fail failure

def stripSwitches (settings : Settings) (elements : List String) : Except Failure Switches := do
  -- The switches under which `strip` runs: those of the settings, unless elements are named.
  if elements.isEmpty then .ok settings.switches
  else do
    elements.forM checkName
    .ok (elements.foldl (fun s element => s.setAdvanced element true) .empty)

structure StripPlan where
  switches : Switches
  policy : Policy
  visitor : Visitor

def planStrip (w : World) (asked : Option String) (file : String) (elements : List String)
    (inPlace : Bool) (request : RequestFlags) : Except Failure StripPlan := do
  if inPlace ∧ file = "-" then badArguments "--in-place needs a file, not stdin"
  else do
    let settings ← w.loadSettings asked
    let switches ← stripSwitches settings elements
    let (policy, visitor) ← w.readRequest settings request
    .ok ⟨switches, policy, visitor⟩

namespace StripPlan

def warning (plan : StripPlan) (mode : Mode) : String :=
  if plan.switches.advancedElements.isEmpty ∧ mode ≠ .quiet then
    Answer.line "warning: no advanced elements configured, nothing to strip"
  else ""

def printStripped (plan : StripPlan) (w : World) (file : String) : Except Failure Answer := do
  let text ← w.readContent file
  .ok (.ok (Content.stripAdvanced plan.policy plan.visitor plan.switches text))

def strippedAnswer (plan : StripPlan) (mode : Mode) (file : String) (changed : Bool) : Answer :=
  .ofMode mode
    (Answer.line (if changed then "Stripped " ++ file else file ++ ": nothing hidden"))
    (.record [("path", .text file),
      ("elements", .array (plan.switches.advancedElements.map .text)),
      ("changed", .bool changed)])

/-- Strips a file in place, as the post of its name in a store of its directory. -/
def stripInPlace (plan : StripPlan) (w : World) (mode : Mode) (file : String) :
    Except Failure (Answer × Tree) :=
  match Path.fileName? file with
  | none => badArguments ("not a file: " ++ file)
  | some post =>
    -- A name alone is that of a file in the working directory.
    let root := if Path.parent file = "" then "." else Path.parent file
    match stripPost plan.policy plan.visitor plan.switches (FileStore.mk root w.tree) post with
    | .error e => .error ⟨.badContent, e.message⟩
    | .ok (changed, store) => .ok (plan.strippedAnswer mode file changed, store.tree)

end StripPlan

def strip (w : World) (mode : Mode) (asked : Option String) (file : String)
    (elements : List String) (inPlace : Bool) (request : RequestFlags) : Answer × Tree :=
  match planStrip w asked file elements inPlace request with
  | .error failure => (.fail failure, w.tree)
  | .ok plan =>
    let (answer, tree) :=
      if inPlace then
        match plan.stripInPlace w mode file with
        | .ok result => result
        | .error failure => (.fail failure, w.tree)
      else (answerOf (plan.printStripped w file), w.tree)
    ({ answer with notes := plan.warning mode }, tree)

def saveSettings (w : World) (mode : Mode) (asked : Option String) (settings : Settings)
    (done : String) : Answer × Tree :=
  match settings.save w.tree (w.environment.resolve asked) with
  | (.ok (), tree) => (.ok (if mode = .quiet then "" else Answer.line done), tree)
  | (.error e, tree) => (.fail ⟨.badSettings, e.fullMessage⟩, tree)

def planCreate (w : World) (asked : Option String) (elements : List String) (force : Bool) :
    Except Failure Settings := do
  elements.forM checkName
  let settings ← w.loadSettings asked
  if !settings.switches.isEmpty && !force then
    .error ⟨.badSettings, "element settings already exist, use --force to replace them"⟩
  else .ok { settings with switches := .fresh elements }

def createSettings (w : World) (mode : Mode) (asked : Option String) (elements : List String)
    (force : Bool) : Answer × Tree :=
  match planCreate w asked elements force with
  | .error failure => (.fail failure, w.tree)
  | .ok settings =>
    saveSettings w mode asked settings
      ("Initialized " ++ toString elements.length ++ " element(s) in " ++
        w.environment.resolve asked)

def planSet (w : World) (asked : Option String) (key value : String) :
    Except Failure Settings := do
  let settings ← w.loadSettings asked
  match settings.set key value with
  | .ok settings => .ok settings
  | .error e => badArguments e.message

def setSetting (w : World) (mode : Mode) (asked : Option String) (key value : String) :
    Answer × Tree :=
  match planSet w asked key value with
  | .error failure => (.fail failure, w.tree)
  | .ok settings => saveSettings w mode asked settings ("Set " ++ key ++ " = " ++ value)

def runSettings (w : World) (mode : Mode) (asked : Option String) : SettingsAction → Answer × Tree
  | .display => (answerOf (displaySettings w asked), w.tree)
  | .path => (displayPath w asked, w.tree)
  | .create elements force => createSettings w mode asked elements force
  | .set key value => setSetting w mode asked key value
  | .verify => (verify w asked, w.tree)

def runAction (w : World) (mode : Mode) (asked : Option String) : Action → Answer × Tree
  | .check subject exitCode request =>
    (answerOf (check w mode asked subject exitCode request), w.tree)
  | .scan element file request => (answerOf (scan w mode asked element file request), w.tree)
  | .strip file elements inPlace request => strip w mode asked file elements inPlace request
  | .render element attributes file request =>
    (answerOf (render w mode asked element attributes file request), w.tree)
  | .encodeParameters pairs => (encodeParameters mode pairs, w.tree)
  | .decodeParameters payload => (decodeParameters mode payload, w.tree)
  | .devices term => (devices mode term, w.tree)
  | .settings action => runSettings w mode asked action
  | .completions shell => (completions shell, w.tree)

def run (w : World) (i : Invocation) : Ending × Tree :=
  let mode := i.mode w.onTerminal
  let (answer, tree) := runAction w mode i.settingsPath i.action
  (answer.ending mode, tree)

end VisibilityRules.Command
