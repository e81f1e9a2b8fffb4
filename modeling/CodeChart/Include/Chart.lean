import CodeChart.Graph.Basic
import CodeChart.Include.Directive
import CodeChart.Include.Mermaid
import CodeChart.Include.SourceFile
import CodeChart.Notice

/-!
# Include charts

The files of a tree are numbered in the order of their paths, and an edge leads from a file to
every other one that it includes.

* `IncludeChart.ofFiles`     the chart of some files, and `Workspace.includeChart` of those below a
                             root;
* `IncludeChart.resolve`     the file that a name stands for: the first whose path is the name or
                             ends in a slash and the name;
* `IncludeChart.follow`      one step of the loop over the names in the files, which makes the edges
                             and keeps the names that stand for no file;
* `IncludeChart.graph`, `IncludeChart.unresolved`  what the loop leaves;
* `IncludeChart.adjacency`   the neighbours of every file, in either direction, by the numbers in
                             their identifiers;
* `IncludeChart.drawing`     the part that is drawn: with a choice of folders every file,
                             without one the files that have an edge.
-/

namespace CodeChart

/-! ## files by number -/

structure IncludeChart where
  files : List SourceFile
  chosen : List Text
  deriving DecidableEq, Repr

/-- without chosen folders all files are kept -/
def IncludeChart.ofFiles (files : List SourceFile) (chosen : List Text) : IncludeChart :=
  ⟨if chosen = [] then files else files.filter fun f => isInFolders f.folder chosen, chosen⟩

def Workspace.includeChart (ws : Workspace) (root : Path) (ignored : List FileName)
    (chosen : List Text) : IncludeChart :=
  IncludeChart.ofFiles (ws.sourceFiles root ignored) chosen

def fileId (k : Nat) : Text := 'F' :: decimal k

/-- the number in an identifier, which has a letter before its digits -/
def fileNumber (id : Text) : Nat := digitsValue (id.drop 1)

namespace IncludeChart

def isFiltered (c : IncludeChart) : Bool := !c.chosen.isEmpty

def ids (c : IncludeChart) : List Nat := List.range c.files.length

def numbered (c : IncludeChart) : List (Nat × SourceFile) := c.ids.zip c.files

/-! ## resolving names -/

def matchesName (name : Text) (f : SourceFile) : Bool :=
  f.path.text == name || ('/' :: name).isSuffixOf f.path.text

/-- a backslash in a name stands for a slash -/
def resolve (c : IncludeChart) (name : Text) : Option Nat :=
  c.files.findIdx? (matchesName (replaceChar '\\' '/' name))

/-- the names that a file includes; a file that cannot be read includes none -/
def includes (f : SourceFile) : List Text := (f.content.map includedNames).getD []

/-! ## the graph -/

def fileAttributes (f : SourceFile) : Attributes := [
  ("label".toList, .text f.path.name),
  ("path".toList, .text f.path.text),
  ("folder".toList, .text f.folder)]

/-- the files, before any name is looked up -/
def collected (c : IncludeChart) : Graph Nat :=
  c.numbered.foldl (fun g p => g.addNode p.1 (fileAttributes p.2)) (Graph.empty false [])

/-- the graph as far as it is made, and the names that stand for no file by the files that they
are in -/
structure Wiring where
  graph : Graph Nat
  unresolved : List (Nat × List Text)
  deriving DecidableEq, Repr

/-- a name in the file with the number `k`; no edge leads from a file to itself -/
def follow (c : IncludeChart) (k : Nat) (w : Wiring) (name : Text) : Wiring :=
  match c.resolve name with
  | none => { w with unresolved := Assoc.push w.unresolved k name }
  | some t => if t = k then w else { w with graph := w.graph.addEdge k t [] }

def wiring (c : IncludeChart) : Wiring :=
  c.numbered.foldl (fun w p => (includes p.2).foldl (c.follow p.1) w) ⟨c.collected, []⟩

def graph (c : IncludeChart) : Graph Nat := c.wiring.graph

/-- files with names that stand for no file, and these names -/
def unresolved (c : IncludeChart) : List (Nat × List Text) := c.wiring.unresolved

/-- by the numbers in their identifiers -/
def sortById (ks : List Nat) : List Nat :=
  ks.mergeSort fun a b => fileNumber (fileId a) ≤ fileNumber (fileId b)

def adjacency (c : IncludeChart) : List (Nat × List Nat) :=
  let g := c.graph
  g.nodes.map fun n => (n.id, sortById (g.neighbours n.id))

/-! ## drawing -/

def shownFiles (c : IncludeChart) : List (Nat × SourceFile) :=
  let g := c.graph
  c.numbered.filter fun p => c.isFiltered || g.isConnected p.1

/-- the shown files by folder, a folder where its first file comes -/
def groups (c : IncludeChart) : List (Text × List Nat) :=
  c.shownFiles.foldl (fun m p => Assoc.push m p.2.folder p.1) []

def shownEdges (c : IncludeChart) : List (Nat × Nat) :=
  let shown := c.shownFiles.map Prod.fst
  (c.graph.orderedEdges.map fun e => (e.source, e.target)).filter fun e =>
    shown.contains e.1 && shown.contains e.2

/-- `absolute` gives the path that a click hands over -/
def drawing (c : IncludeChart) (absolute : Path → Path) (direction : Text) : IncludeDrawing where
  groups := c.groups.map fun g => (g.1, g.2.map fileId)
  names := c.numbered.map fun p => (fileId p.1, p.2.path.name)
  edges := c.shownEdges.map fun e => (fileId e.1, fileId e.2)
  clicks := c.shownFiles.map fun p => (fileId p.1, (absolute p.2.path).text)
  direction := direction

/-! ## notices -/

def collectedNotice (c : IncludeChart) (root : Path) : Notice :=
  ⟨.debug, "Collected ".toList ++ decimal c.files.length ++ " source files under ".toList
    ++ root.text⟩

def unreadableNotice (f : SourceFile) : Notice :=
  ⟨.warning, "Could not read ".toList ++ f.path.text ++ ": ".toList
    ++ FileError.unavailable.message f.path.text⟩

/-- the number of files, and every file that cannot be read -/
def notices (c : IncludeChart) (root : Path) : List Notice :=
  c.collectedNotice root :: (c.files.filter fun f => f.content.isNone).map unreadableNotice

end IncludeChart

end CodeChart
