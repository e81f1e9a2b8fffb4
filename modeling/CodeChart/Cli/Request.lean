import CodeChart.Cli.Command
import CodeChart.Export

/-!
# What a command asks for

* `Ending`            how a run ends, with its exit code;
* `Request`           a chart of one of the two kinds, a list of folders, or a word about the
                      program itself;
* `Command.request`   the request of a command; its options are looked at in the order in which
                      they were first given, then its other arguments, and the first one that is
                      wrong decides how the run ends.
-/

namespace CodeChart.Cli

/-! ## endings -/

inductive Ending where
  | success
  | usage (e : UsageError)
  /-- a project without source files has no folders to list -/
  | noFolders
  | failed (f : FileFailure)
  deriving DecidableEq, Repr

def Ending.exitCode : Ending → Nat
  | .success => 0
  | .usage _ => 2
  | .noFolders => 1
  | .failed _ => 1

def Ending.message? : Ending → Option Text
  | .success => none
  | .usage e => some ("Error: ".toList ++ e.message)
  | .noFolders => some "Error: No source folders found.".toList
  | .failed f => some (f.error.message f.name)

/-! ## requests -/

structure FlowchartRequest where
  file : Text
  output : Text
  format : Format
  direction : Text
  clickBindings : Bool
  picture : Bool
  deriving DecidableEq, Repr

structure DepsRequest where
  root : Text
  folders : List Text
  ignored : List Text
  output : Text
  format : Format
  deriving DecidableEq, Repr

inductive Request where
  | version
  | help
  | flowchart (r : FlowchartRequest)
  | deps (r : DepsRequest)
  | folders (root : Text)
  deriving DecidableEq, Repr

/-! ## names of files -/

/-- a name that is well formed but leads to nothing usable is a wrong use -/
def Ending.ofLookup (name : Text) : FileError → Ending
  | .malformed => .failed ⟨name, .malformed⟩
  | _ => .usage (.badPath name)

def checkPlace (ws : Workspace) (name : Text) (p : Entry → Bool) : Except Ending Unit :=
  match ws.find name with
  | .ok place => if p place.entry then .ok () else .error (.usage (.badPath name))
  | .error e => .error (.ofLookup name e)

/-- the name of an output must not be a directory, and need not exist -/
def checkOutput (ws : Workspace) (name : Text) : Except Ending Unit :=
  match ws.find name with
  | .ok place => if place.entry.isDir then .error (.usage (.badPath name)) else .ok ()
  | .error .malformed => .error (.ofLookup name .malformed)
  | .error _ => .ok ()

/-! ## options -/

def directions : List Text := ["TD".toList, "LR".toList]

/-- `holds` tells whether the value of an option is one of its choices -/
def checkChoice (t : Text) (holds : Bool) : Except Ending Unit :=
  if holds then .ok () else .error (.usage (.badChoice t))

/-- of several values of an option the last one counts -/
def checkOption (ws : Workspace) (a : Arguments CommandOption) (key : CommandOption) :
    Except Ending Unit :=
  match key, a.value? key with
  | .output, some t => checkOutput ws t
  | .format, some t => checkChoice t (Format.ofName? t).isSome
  | .direction, some t => checkChoice t (directions.contains t)
  | _, _ => .ok ()

def checkOptions (ws : Workspace) (a : Arguments CommandOption) : Except Ending Unit :=
  (a.options.map Prod.fst).eraseDups.forM (checkOption ws a)

def formatOf (a : Arguments CommandOption) : Format :=
  ((a.value? .format).bind Format.ofName?).getD .mermaid

def directionOf (a : Arguments CommandOption) : Text :=
  (a.value? .direction).getD Flowchart.Style.standard.direction

/-- an empty name of an output is none -/
def outputOf (a : Arguments CommandOption) : Text := (a.value? .output).getD []

/-! ## other arguments -/

/-- the only other argument, called `name` where it is missing, names something for which `p`
holds -/
def onlyPlace (ws : Workspace) (a : Arguments CommandOption) (name : Text) (p : Entry → Bool) :
    Except Ending Text :=
  match a.plain with
  | [] => .error (.usage (.missingArgument name))
  | t :: more =>
    match checkPlace ws t p, more with
    | .error e, _ => .error e
    | .ok _, [] => .ok t
    | .ok _, extra :: _ => .error (.usage (.extraArgument extra))

def codeFile (ws : Workspace) (a : Arguments CommandOption) : Except Ending Text :=
  onlyPlace ws a "CODE_FILE".toList fun e => !e.isDir

def rootDir (ws : Workspace) (a : Arguments CommandOption) : Except Ending Text :=
  onlyPlace ws a "ROOT_DIR".toList fun e => !e.isFile

/-! ## the request of a command -/

def Command.request (ws : Workspace) : Command → Except Ending Request
  | .version => .ok .version
  | .help => .ok .help
  | .flowchart a => do
    checkOptions ws a
    let file ← codeFile ws a
    return .flowchart ⟨file, outputOf a, formatOf a, directionOf a, a.has .clickBindings,
      a.has .picture⟩
  | .deps a => do
    checkOptions ws a
    let root ← rootDir ws a
    return .deps ⟨root, a.values .folder, a.values .ignore, outputOf a, formatOf a⟩
  | .folders a => do
    checkOptions ws a
    let root ← rootDir ws a
    return .folders root

end CodeChart.Cli
