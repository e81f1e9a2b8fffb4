import CodeChart.Flowchart.Builder
import CodeChart.Mermaid
import CodeChart.Path

/-!
# Flowcharts as Mermaid text

* `Shape`           the outlines of nodes;
* `Node.line`, `Edge.line`   the line of a node and of an edge;
* `Flowchart.toMermaid`   the whole text: the classes, the start node, the nodes and the edges in
                    the order of their creation, and the click bindings if they are asked for.
-/

namespace CodeChart

open Mermaid

/-! ## shapes and classes -/

inductive Shape where
  | diamond
  | box
  | rounded
  | circle
  | asymmetric
  deriving DecidableEq, Repr

def Shape.left : Shape → Text
  | .diamond => ['{']
  | .box => ['[']
  | .rounded => ['(']
  | .circle => ['(', '(']
  | .asymmetric => ['>']

def Shape.right : Shape → Text
  | .diamond => ['}']
  | .box => [']']
  | .rounded => [')']
  | .circle => [')', ')']
  | .asymmetric => [']']

def Kind.shape : Kind → Shape
  | .conditional | .switch | .loop => .diamond
  | .alternative | .caseLabel | .plain => .box
  | .doLoop => .rounded
  | .tryBlock | .handler => .asymmetric
  | .jump => .circle

/-- a node without a kind is a box -/
def Node.shape (n : Node) : Shape := (n.kind.map Kind.shape).getD .box

def Category.cssClass : Category → Text
  | .standard => "default".toList
  | .decision => "decision".toList
  | .process => "process".toList
  | .terminator => "terminator".toList
  | .switchHeader => "switchNode".toList
  | .exceptionBlock => "catchNode".toList
  | .other _ => "default".toList

/-- the look of a class: its colours, the width of the outline and the radius of the corners -/
def classLine (name fill stroke : String) (width radius : Nat) : Text :=
  let r := decimal radius ++ "px".toList
  "classDef ".toList ++ name.toList ++ " fill:".toList ++ fill.toList ++ ",stroke:".toList
    ++ stroke.toList ++ ",stroke-width:".toList ++ decimal width ++ "px,color:#fff,rx:".toList
    ++ r ++ ",ry:".toList ++ r ++ ";".toList

def flowchartClasses : List Text := [
  classLine "default" "#1e1e1e" "#cccccc" 1 3,
  classLine "decision" "#5b2d90" "#a772d0" 2 5,
  classLine "process" "#005f9e" "#2696d1" 2 3,
  classLine "terminator" "#820808" "#ff5555" 2 10,
  classLine "switchNode" "#9c5b0b" "#e08c1d" 2 5,
  classLine "catchNode" "#946c00" "#ffd700" 2 5]

/-! ## lines -/

def Node.mermaidLine (n : Node) : Text :=
  n.id.name ++ n.shape.left ++ quoted (sanitize n.label) ++ n.shape.right ++ ":::".toList
    ++ n.category.cssClass ++ ";".toList

/-- the style of an edge shows only if it has no tag -/
def Edge.mermaidLine (e : Edge) : Text :=
  match e.tag with
  | some (c :: tag) =>
    e.source.name ++ " -- ".toList ++ sanitize (c :: tag) ++ " --> ".toList ++ e.target.name
      ++ ";".toList
  | _ =>
    if e.style = .dashed then
      e.source.name ++ " -.-> ".toList ++ e.target.name ++ ";".toList
    else arrowLine e.source.name e.target.name

/-- the line below the classes, which ties the first node to the start -/
def startLine (nodes : List Node) : Text :=
  match nodes with
  | [] => "Start((START));".toList
  | n :: _ => "Start((START)) --> ".toList ++ n.id.name ++ ";".toList

/-! ## the whole text -/

structure Flowchart.Style where
  direction : Text
  clickBindings : Bool
  sourcePath : Option Text
  deriving DecidableEq, Repr

def Flowchart.Style.standard : Flowchart.Style := ⟨"TD".toList, false, none⟩

/-- a click hands over the line, behind the path of the source if that is known -/
def Node.clickPayload (sourcePath : Option Text) (n : Node) : Text :=
  match sourcePath with
  | some (c :: path) => (Path.ofText (c :: path)).text ++ ":".toList ++ signedDecimal n.line
  | _ => signedDecimal n.line

def Node.clickLine (sourcePath : Option Text) (n : Node) : Text :=
  Mermaid.clickLine n.id.name (n.clickPayload sourcePath)

def Flowchart.mermaidLines (chart : Flowchart) (style : Flowchart.Style) : List Text :=
  graphLine style.direction :: flowchartClasses ++ [startLine chart.nodes]
    ++ chart.nodes.map Node.mermaidLine ++ chart.edges.map Edge.mermaidLine
    ++ (if style.clickBindings then chart.nodes.map (Node.clickLine style.sourcePath) else [])

def Flowchart.toMermaid (chart : Flowchart) (style : Flowchart.Style) : Text :=
  unlines (chart.mermaidLines style)

theorem Flowchart.length_mermaidLines (chart : Flowchart) (style : Flowchart.Style)
    (h : style.clickBindings = false) :
    (chart.mermaidLines style).length = 8 + chart.nodes.length + chart.edges.length := by
  simp [Flowchart.mermaidLines, flowchartClasses, h]
  omega

end CodeChart
