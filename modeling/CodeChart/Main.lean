import CodeChart.Cli.Run

/-!
# The command line

The files that a command names are loaded into a workspace, the command line is run there, and
what the run has printed and written is handed on.  All decisions are taken by `Cli.run`.

* `loadEntry`      a file, or a directory with everything below it;
* `loadName`       what stands on the way of a name, and what it leads to;
* `loadCommand`    everything a command needs to know about;
* `main`           runs the command line.
-/

namespace CodeChart.Cli

/-! ## loading -/

/-- directories are listed, but what a link leads to is not entered -/
partial def loadEntry (name : String) : IO Entry := do
  let path := (← IO.currentDir) / name
  if ← path.isDir then
    let mut entries := []
    for d in ← path.readDir do
      let linked := (← d.path.symlinkMetadata).type == .symlink
      let e ← if linked && (← d.path.isDir) then pure Entry.emptyDir
        else loadEntry (name ++ "/" ++ d.fileName)
      entries := entries ++ [(d.fileName.toList, e)]
    return .dir entries
  else if (← path.metadata).type == .file then
    return .file (← IO.FS.readBinFile path).toList
  else
    return .special

/-- the beginnings of a name that end before a slash, and the name -/
def beginnings (name : Text) : List Text :=
  (List.range name.length).filterMap fun i =>
    if i + 1 = name.length ∨ name[i + 1]? = some '/' then some (name.take (i + 1)) else none

def addEntry (ws : Workspace) (name : Text) (e : Entry) : Workspace :=
  .ofLocation (ws.root.insert (ws.absolute (Path.ofText name)).parts e) ws.location

/-- directories come in without what is below them -/
def loadName (ws : Workspace) (name : Text) : IO Workspace := do
  let mut ws := ws
  for t in beginnings name do
    let path := (← IO.currentDir) / String.ofList t
    if (ws.find t).toOption.isNone && (← path.pathExists) then
      let e ← if ← path.isDir then pure Entry.emptyDir else loadEntry (String.ofList t)
      ws := addEntry ws t e
  return ws

/-- a directory comes in with everything below it -/
def loadTree (ws : Workspace) (root : Text) : IO Workspace := do
  let ws ← loadName ws root
  if (ws.find root).toOption.isNone then return ws
  return addEntry ws root (← loadEntry (String.ofList root))

def loadNames (ws : Workspace) (names : List Text) : IO Workspace := names.foldlM loadName ws

def loadTrees (ws : Workspace) (roots : List Text) : IO Workspace := roots.foldlM loadTree ws

def loadCommand (ws : Workspace) : Command → IO Workspace
  | .version => return ws
  | .help => return ws
  | .flowchart a => loadNames ws (a.values .output ++ a.plain)
  | .deps a => do loadNames (← loadTrees ws a.plain) (a.values .output)
  | .folders a => loadTrees ws a.plain

def loadWorkspace (args : List Text) : IO Workspace := do
  let location := pathParts (← IO.currentDir).toString.toList
  let ws := Workspace.ofLocation (Entry.emptyDir.insert location Entry.emptyDir) location
  match Command.parse args with
  | .ok c => loadCommand ws c
  | .error _ => return ws

/-! ## handing on -/

/-- warnings are told, and in a verbose run everything -/
def told (verbose : Bool) (n : Notice) : Bool := verbose || n.level != .debug

def showRun (verbose : Bool) (r : Run) : IO UInt32 := do
  for n in r.notices.filter (told verbose) do
    IO.eprintln (String.ofList (n.level.name ++ ": ".toList ++ n.message))
  for w in r.session.written do
    IO.FS.writeFile ("/" ++ String.ofList (List.intercalate ['/'] w.1)) (String.ofList w.2)
  for command in r.session.commands do
    IO.eprintln ("To draw the picture: " ++ String.ofList (List.intercalate [' '] command))
  IO.print (String.ofList r.stdout)
  if let some message := r.ending.message? then
    IO.eprintln (String.ofList message)
  return UInt32.ofNat r.ending.exitCode

end CodeChart.Cli

def main (args : List String) : IO UInt32 := do
  let args := args.map String.toList
  let ws ← CodeChart.Cli.loadWorkspace args
  CodeChart.Cli.showRun (CodeChart.Cli.isVerbose args) (CodeChart.Cli.run ws args)
