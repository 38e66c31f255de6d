import VisibilityRules.Command.Run

set_option autoImplicit false

/-!
The program. It copies the files that a command line names into a tree, runs the command, and
writes the files that the command has changed.
-/
namespace VisibilityRules.Program

open Command

def contentFile? : Action → Option String
  | .scan _ file _ | .strip file _ _ _ | .render _ _ file _ => some file
  | _ => none

def text (location : Location) : String := "/" ++ "/".intercalate location

def look (location : Location) : IO (Option Node) := do
  match ← (IO.FS.readBinFile (text location)).toBaseIO with
  | .ok bytes => pure (some (.file bytes.toList))
  | .error _ =>
    let isDirectory ← ((← IO.currentDir) / text location).isDir
    pure (if isDirectory then some .directory else none)

def copyPath (t : Tree) (path : String) : IO Tree := do
  let mut tree := t
  let mut here := t.origin path
  for name in Path.steps path do
    here := if name = ".." then here.dropLast else here ++ [name]
    match ← look here with
    | some node => tree := tree.put here node
    | none => pure ()
  pure tree

def startTree : IO Tree := do
  let working := Path.steps (← IO.currentDir).toString
  let above := (List.range working.length).map fun n => working.take (n + 1)
  pure (above.foldl (fun tree location => tree.put location .directory) ⟨∅, working⟩)

def currentTime : IO Calendar.Instant := do
  let (_, path) ← IO.FS.createTempFile
  let time := (← path.metadata).modified
  IO.FS.removeFile path
  let start := Calendar.Instant.ofDate ⟨1970, 1, 1⟩ 0 0 0 0
  pure ⟨start.second + time.sec, time.nsec.toNat⟩

def environment : IO Environment := do
  pure ⟨(← IO.getEnv "HOME").getD "", "/", ← IO.getEnv "SHOWFOR_CONFIG"⟩

def readAll (stream : IO.FS.Stream) : IO ByteArray := do
  let mut bytes := ByteArray.empty
  repeat
    let piece ← stream.read 65536
    if piece.isEmpty then break
    bytes := bytes ++ piece
  pure bytes

def world (i : Invocation) : IO World := do
  let environment ← environment
  let file := contentFile? i.action
  let tree ← copyPath (← startTree) (environment.resolve i.settingsPath)
  let tree ← copyPath tree ((file.filter (· ≠ "-")).getD "")
  let input ← if file = some "-" then readAll (← IO.getStdin) else pure .empty
  pure ⟨tree, environment, input.toList, ← currentTime, ← (← IO.getStdout).isTty⟩

def writeChanges (before after : Tree) : IO Unit := do
  for (location, node) in after.nodes.toList do
    if before.nodes[location]? ≠ some node then
      match node with
      | .directory => IO.FS.createDirAll (text location)
      | .file bytes => IO.FS.writeBinFile (text location) ⟨bytes.toArray⟩

def report (u : Usage) : IO UInt32 := do
  if u.code = 0 then (← IO.getStdout).putStrLn u.message
  else (← IO.getStderr).putStrLn ("error: " ++ u.message)
  pure u.code.toUInt32

def execute (i : Invocation) : IO UInt32 := do
  let world ← world i
  let (ending, after) := run world i
  writeChanges world.tree after
  (← IO.getStdout).putStr ending.output
  (← IO.getStderr).putStr ending.errors
  pure ending.code.toUInt32

end VisibilityRules.Program

def main (args : List String) : IO UInt32 := do
  match VisibilityRules.Command.Invocation.read args with
  | .ok invocation => VisibilityRules.Program.execute invocation
  | .error usage => VisibilityRules.Program.report usage
