import CodeChart.Cli.Request
import CodeChart.Text.Control

/-!
# Running a request

* `Run`   what a run prints, writes and tells, and how it ends;
* `run`   the run of a command line in a workspace.
-/

namespace CodeChart.Cli

/-! ## what a run yields -/

/-- `stdout` is plain text without control sequences -/
structure Run where
  stdout : Text
  session : Session
  notices : List Notice
  ending : Ending
  deriving DecidableEq, Repr

/-- prints and does nothing else -/
def Run.printing (t : Text) : Run := ⟨dropControls t, Session.fresh, [], .success⟩

def Run.ended (e : Ending) : Run := ⟨[], Session.fresh, [], e⟩

/-- writes the files of a chart, or prints its Mermaid text if no name is given -/
def Run.ofRendering (ws : Workspace) (r : Rendering) (notices : List Notice) (output : Text)
    (format : Format) (picture : Bool) : Run :=
  match Session.fresh.perform ws (r.outputsFor output format picture) with
  | (s, some f) => ⟨[], s, notices, .failed f⟩
  | (s, none) => ⟨if output = [] then dropControls r.mermaid else [], s, notices, .success⟩

/-! ## requests -/

def versionText : Text := "cppviz, version 0.1.0\n".toList

def helpText : Text := ("Usage: cppviz [OPTIONS] COMMAND [ARGS]...\n\n" ++
  "  Mermaid flowcharts and include graphs for C/C++ code.\n\n" ++
  "Commands:\n" ++
  "  deps       Draw the #include dependencies between files under ROOT_DIR.\n" ++
  "  flowchart  Draw the control flow of CODE_FILE.\n" ++
  "  folders    List the folders under ROOT_DIR that contain C/C++ files.\n").toList

def FlowchartRequest.run (ws : Workspace) (r : FlowchartRequest) : Run :=
  match ws.read r.file with
  | .error e => Run.ended (.failed ⟨r.file, e⟩)
  | .ok octets =>
    let path := Path.ofText r.file
    let builder := Builder.ofSource (textOfOctets octets)
    let rendering := builder.chart.rendering (languageOfExtension path.extension).name
      ⟨r.direction, r.clickBindings, some (ws.absolute path).text⟩
    Run.ofRendering ws rendering (builder.notices.map BuilderNotice.notice) r.output r.format
      r.picture

def DepsRequest.run (ws : Workspace) (r : DepsRequest) : Run :=
  let root := Path.ofText r.root
  let ignored := if r.ignored = [] then standardIgnored else r.ignored
  let chart := ws.includeChart root ignored r.folders
  Run.ofRendering ws (chart.rendering ws.absolute includeDirection) (chart.notices root) r.output
    r.format false

def runFolders (ws : Workspace) (root : Text) : Run :=
  match projectFolders (ws.sourceFiles (Path.ofText root) standardIgnored) with
  | [] => Run.ended .noFolders
  | folders => Run.printing (Mermaid.unlines folders)

def Request.run (ws : Workspace) : Request → Run
  | .version => Run.printing versionText
  | .help => Run.printing helpText
  | .flowchart r => r.run ws
  | .deps r => r.run ws
  | .folders root => runFolders ws root

/-- the run of a command line -/
def run (ws : Workspace) (args : List Text) : Run :=
  match Command.parse args with
  | .error e => Run.ended (.usage e)
  | .ok c =>
    match c.request ws with
    | .error e => Run.ended e
    | .ok r => r.run ws

end CodeChart.Cli
