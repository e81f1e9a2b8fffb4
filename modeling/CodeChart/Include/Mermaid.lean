import CodeChart.Assoc
import CodeChart.Mermaid

/-!
# Include charts as Mermaid text

* `IncludeDrawing`            what is drawn: files in groups, edges, click bindings;
* `IncludeDrawing.toMermaid`  the text, if every file that is drawn has a name.
-/

namespace CodeChart

open Mermaid

/-- `groups` holds the files by folder; `names` and `clicks` belong to files -/
structure IncludeDrawing where
  groups : List (Text × List Text)
  names : List (Text × Text)
  edges : List (Text × Text)
  clicks : List (Text × Text)
  direction : Text
  deriving DecidableEq, Repr

/-- an include chart is drawn from left to right unless another direction is asked for -/
def includeDirection : Text := "LR".toList

def includeClasses : List Text := [
  "classDef file fill:#2d2d2d,stroke:#569cd6,stroke-width:2px,color:#fff;".toList,
  ("classDef folder fill:#1e1e1e,stroke:#444,stroke-width:2px,color:#aaa," ++
    "stroke-dasharray: 5 5;").toList]

def shortFolder (folder : Text) : Text := ((splitOn '/' folder).getLast?).getD []

def groupLine (index : Nat) (folder : Text) : Text :=
  "subgraph G".toList ++ decimal index ++ " [\"📁 ".toList ++ sanitize (shortFolder folder)
    ++ "\"]".toList

def fileLine (id name : Text) : Text :=
  id ++ "[".toList ++ quoted (sanitize name) ++ "]:::file;".toList

/-- the lines of a group; a file without a name has no line -/
def groupLines (names : List (Text × Text)) (index : Nat) (group : Text × List Text) :
    Option (List Text) := do
  let files ← group.2.mapM fun id => (names.lookup id).map (fileLine id)
  return groupLine index group.1 :: "direction TB;".toList :: files ++ ["end".toList]

def IncludeDrawing.numberedGroups (d : IncludeDrawing) : List (Nat × (Text × List Text)) :=
  let shown := d.groups.filter fun g => !g.2.isEmpty
  (List.range shown.length).zip shown

def IncludeDrawing.mermaidLines (d : IncludeDrawing) : Option (List Text) := do
  let groups ← d.numberedGroups.mapM fun g => groupLines d.names g.1 g.2
  return graphLine d.direction :: includeClasses ++ groups.flatten
    ++ d.edges.map (fun e => arrowLine e.1 e.2)
    ++ d.clicks.map (fun c => clickLine c.1 c.2)

def IncludeDrawing.toMermaid (d : IncludeDrawing) : Option Text := d.mermaidLines.map unlines

end CodeChart
