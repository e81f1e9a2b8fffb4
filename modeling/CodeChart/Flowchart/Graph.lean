import CodeChart.Flowchart.Basic
import CodeChart.Graph.Basic

/-!
# The graph of a flowchart

* `Flowchart.toGraph`   a multigraph with a start node that is there from the beginning.
-/

namespace CodeChart

def Node.attributes (n : Node) : Attributes := [
  ("label".toList, .text n.label),
  ("type_label".toList, .text n.category.name),
  ("line".toList, .number n.line)]

def startAttributes : Attributes := [
  ("label".toList, .text "START".toList),
  ("type_label".toList, .text "root".toList),
  ("line".toList, .number 0)]

/-- control comes over a dashed edge by an exception only -/
def EdgeStyle.controlFlow : EdgeStyle → Text
  | .dashed => "exception".toList
  | _ => "next".toList

def Edge.attributes (e : Edge) : Attributes := [
  ("controlflow_type".toList, .text e.style.controlFlow),
  ("edge_type".toList, .text "flowchart_edge".toList),
  ("style".toList, .text e.style.name),
  ("label".toList, .text (e.tag.getD []))]

def Flowchart.toGraph (chart : Flowchart) (language : Text) : Graph NodeId :=
  let base := (Graph.empty true [("src_language".toList, .text language)]).addNode NodeId.start
    startAttributes
  let noded := chart.nodes.foldl (fun g n => g.addNode n.id n.attributes) base
  chart.edges.foldl (fun g e => g.addEdge e.source e.target e.attributes) noded

end CodeChart
