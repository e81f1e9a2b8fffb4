import CodeChart.Flowchart.Graph
import CodeChart.Graph.Json
import CodeChart.Proofs.Builder.Tree
import CodeChart.Proofs.Graph.Growth
import CodeChart.Proofs.Pairing

/-!
# The node-link form of a flowchart

The graph that is exported keeps its nodes and edges in lists of its own, in which a node stands
once and the edges of one source stand together, with a key for each.  For a flowchart these are
its nodes and edges again, since it is a tree and an edge leads to an ever later node.

* `Node.record`, `Edge.record`, `Flowchart.nodeLink`   the JSON text of a node, an edge, a chart;
* `Flowchart.toGraph_eq` a chart without repetitions goes into the graph list by list;
* `Edge.Before`, `Builder.Hung.exists_sorted`   the order of edges by the creation of their ends,
                         in which the graph hands them out;
* `Edge.Marks`           what the attributes of an edge tell about the node that it leads to;
* `Flowchart.IsNodeLink`, `exists_nodeLink`   the exported graph is the flowchart, for every source
                         text.
-/

namespace CodeChart

/-! ## records -/

def recordOfNode (name label category : Text) (line : Int) : Text := Json.object [
  ("label".toList, Json.string label),
  ("type_label".toList, Json.string category),
  ("line".toList, Json.number line),
  ("id".toList, Json.string name)]

def startRecord : Text := recordOfNode "Start".toList "START".toList "root".toList 0

def Node.record (n : Node) : Text := recordOfNode n.id.name n.label n.category.name n.line

def Edge.record (e : Edge) : Text := Json.object [
  ("controlflow_type".toList, Json.string e.style.controlFlow),
  ("edge_type".toList, Json.string "flowchart_edge".toList),
  ("style".toList, Json.string e.style.name),
  ("label".toList, Json.string (e.tag.getD [])),
  ("source".toList, Json.string e.source.name),
  ("target".toList, Json.string e.target.name),
  ("key".toList, Json.number 0)]

/-- the text of a chart, its edges in the order of the list -/
def Flowchart.nodeLink (chart : Flowchart) (language : Text) (sorted : List Edge) : Text :=
  Json.object [
    ("directed".toList, Json.bool true),
    ("multigraph".toList, Json.bool true),
    ("graph".toList, Json.object [("src_language".toList, Json.string language)]),
    ("nodes".toList, Json.array (startRecord :: chart.nodes.map Node.record)),
    ("edges".toList, Json.array (sorted.map Edge.record))]

def Node.toGraphNode (n : Node) : GraphNode NodeId := ⟨n.id, n.attributes⟩

def Edge.toGraphEdge (e : Edge) : GraphEdge NodeId := ⟨e.source, e.target, .number 0, e.attributes⟩

theorem Node.toJson_toGraphNode (n : Node) : n.toGraphNode.toJson NodeId.name = n.record :=
  rfl

theorem Edge.toJson_toGraphEdge (e : Edge) :
    e.toGraphEdge.toJson NodeId.name true = e.record := rfl

theorem toJson_start : GraphNode.toJson NodeId.name ⟨.start, startAttributes⟩ = startRecord :=
  rfl

/-! ## the graph -/

theorem Assoc.ofPairs_startAttributes : Assoc.ofPairs startAttributes = startAttributes :=
  Assoc.ofPairs_of_nodup (by decide)

theorem Node.ofPairs_attributes (n : Node) : Assoc.ofPairs n.attributes = n.attributes := by
  refine Assoc.ofPairs_of_nodup ?_
  show ["label".toList, "type_label".toList, "line".toList].Nodup
  decide

theorem Edge.keys_attributes (e : Edge) : e.attributes.map Prod.fst
    = ["controlflow_type".toList, "edge_type".toList, "style".toList, "label".toList] := rfl

theorem Edge.ofPairs_attributes (e : Edge) : Assoc.ofPairs e.attributes = e.attributes := by
  refine Assoc.ofPairs_of_nodup ?_
  rw [e.keys_attributes]
  decide

/-- the start node and the lists of the chart -/
def Flowchart.asGraph (chart : Flowchart) (language : Text) : Graph NodeId :=
  ⟨true, [("src_language".toList, .text language)],
    ⟨.start, startAttributes⟩ :: chart.nodes.map Node.toGraphNode,
    chart.edges.map Edge.toGraphEdge⟩

theorem Flowchart.ids_asGraph (chart : Flowchart) (language : Text) :
    (chart.asGraph language).nodes.map GraphNode.id = .start :: chart.nodes.map Node.id := by
  show (GraphNode.mk NodeId.start startAttributes
    :: chart.nodes.map Node.toGraphNode).map GraphNode.id = _
  rw [List.map_cons, List.map_map]
  rfl

theorem addNode_start (language : Text) :
    (Graph.empty true [("src_language".toList, .text language)]).addNode NodeId.start
      startAttributes = Flowchart.asGraph ⟨[], []⟩ language := by
  rw [Graph.addNode_of_new List.not_mem_nil, Assoc.ofPairs_startAttributes]
  rfl

/-- a chart whose nodes differ and whose edges differ in their ends is taken over as it is -/
theorem Flowchart.toGraph_eq {chart : Flowchart} (language : Text)
    (hids : (NodeId.start :: chart.nodes.map Node.id).Nodup)
    (hends : (chart.edges.map fun e => (e.source, e.target)).Nodup)
    (hnodes : ∀ e ∈ chart.edges, e.source ∈ NodeId.start :: chart.nodes.map Node.id ∧
      e.target ∈ NodeId.start :: chart.nodes.map Node.id) :
    chart.toGraph language = chart.asGraph language := by
  have hnoded : chart.nodes.foldl (fun g n => g.addNode n.id n.attributes)
      (Flowchart.asGraph ⟨[], []⟩ language) = Flowchart.asGraph ⟨chart.nodes, []⟩ language := by
    rw [Graph.foldl_addNode (Flowchart.asGraph ⟨[], []⟩ language) Node.id Node.attributes hids]
    simp only [Node.ofPairs_attributes]
    rfl
  have hkeys : ∀ e ∈ chart.edges, Graph.keyName ∉ e.attributes.map Prod.fst := by
    intro e _
    rw [e.keys_attributes]
    decide
  show chart.edges.foldl (fun g e => g.addEdge e.source e.target e.attributes)
    (chart.nodes.foldl (fun g n => g.addNode n.id n.attributes) ((Graph.empty true
      [("src_language".toList, .text language)]).addNode .start startAttributes)) = _
  -- all nodes come before the edges, so no edge brings one in
  rw [← Flowchart.ids_asGraph ⟨chart.nodes, []⟩ language] at hnodes
  rw [addNode_start, hnoded, Graph.foldl_addEdge (Flowchart.asGraph ⟨chart.nodes, []⟩ language)
    Edge.source Edge.target Edge.attributes rfl hends hnodes hkeys]
  simp only [Edge.ofPairs_attributes]
  rfl

/-! ## the order of the edges -/

instance : Std.Irrefl NodeId.Older := ⟨NodeId.not_older_self⟩

/-- by the creation of the source, then by that of the target -/
def Edge.Before (e f : Edge) : Prop :=
  e.source.Older f.source ∨ e.source = f.source ∧ e.target.Older f.target

theorem Builder.Sound.ascending_ids {b : Builder} (h : b.Sound) :
    (NodeId.start :: b.nodes.map Node.id).Pairwise NodeId.Older := by
  rw [h.ids_eq]
  refine List.pairwise_cons.2 ⟨fun id hid => ?_, ?_⟩
  · obtain ⟨k, _, rfl⟩ := List.mem_map.1 hid
    trivial
  · exact List.pairwise_map.2 List.pairwise_lt_range

/-- both ends of an edge are nodes -/
theorem Builder.Hung.ends_mem {b : Builder} (hs : b.Sound) (h : b.Hung) {e : Edge}
    (he : e ∈ b.edges) : e.source ∈ NodeId.start :: b.nodes.map Node.id ∧
      e.target ∈ NodeId.start :: b.nodes.map Node.id := by
  have htree := h.isRootedTree hs
  obtain ⟨i, hi⟩ := List.getElem?_of_mem he
  have hsize : i < b.nodes.length := by
    rw [← hs.edges_eq]
    exact (List.getElem?_eq_some_iff.1 hi).1
  have hmem : ∀ j, j ≤ i → NodeId.node j ∈ b.nodes.map Node.id := by
    intro j hj
    rw [hs.ids_eq]
    exact List.mem_map_of_mem (List.mem_range.2 (by omega))
  constructor
  · rcases htree.sources i e hi with hstart | ⟨j, hj, hnode⟩
    · rw [hstart]
      exact List.mem_cons_self
    · rw [hnode]
      exact List.mem_cons_of_mem _ (hmem j (Nat.le_of_lt hj))
  · rw [htree.targets i e hi]
    exact List.mem_cons_of_mem _ (hmem i (Nat.le_refl i))

theorem Builder.Hung.toGraph_eq {b : Builder} (hs : b.Sound) (h : b.Hung) (language : Text) :
    b.chart.toGraph language = b.chart.asGraph language :=
  Flowchart.toGraph_eq language hs.ascending_ids.nodup (h.isRootedTree hs).parallelFree
    fun _ he => h.ends_mem hs he

theorem Builder.Hung.exists_sorted {b : Builder} (hs : b.Sound) (h : b.Hung) (language : Text) :
    ∃ sorted : List Edge, sorted.Perm b.edges ∧ sorted.Pairwise Edge.Before ∧
      (b.chart.asGraph language).orderedEdges = sorted.map Edge.toGraphEdge := by
  have hids := b.chart.ids_asGraph language
  have hnodes : ((b.chart.asGraph language).nodes.map GraphNode.id).Pairwise NodeId.Older := by
    rw [hids]
    exact hs.ascending_ids
  have htargets : ((b.chart.asGraph language).edges.map GraphEdge.target).Pairwise
      NodeId.Older := by
    have htarget : (b.chart.asGraph language).edges.map GraphEdge.target
        = b.nodes.map Node.id := by
      rw [← targets_of_fits h.fits]
      exact List.map_map
    rw [htarget]
    exact (List.pairwise_cons.1 hs.ascending_ids).2
  have hsources : ∀ x ∈ (b.chart.asGraph language).edges,
      x.source ∈ (b.chart.asGraph language).nodes.map GraphNode.id := by
    rw [hids]
    exact List.forall_mem_map.2 fun e he => (h.ends_mem hs he).1
  have hperm : (b.chart.asGraph language).orderedEdges.Perm (b.edges.map Edge.toGraphEdge) :=
    Graph.orderedEdges_perm hnodes.nodup hsources
  obtain ⟨sorted, hsame, hsorted⟩ := exists_perm_of_map hperm
  -- `Edge.Before` is the order of the graph's edges, read through `Edge.toGraphEdge`
  have horder : (sorted.map Edge.toGraphEdge).Pairwise (GraphEdge.Before NodeId.Older) :=
    hsorted ▸ Graph.orderedEdges_pairwise hnodes htargets
  refine ⟨sorted, hsame, ?_, hsorted⟩
  exact (List.pairwise_map.1 horder).imp fun hbefore => hbefore

/-! ## the kind of the target -/

/-- the attributes of an edge tell what it leads to -/
structure Edge.Marks (e : Edge) (n : Node) : Prop where
  target : e.target = n.id
  controlFlow : e.attributes.lookup "controlflow_type".toList = some (.text "exception".toList) ↔
    n.kind = some .handler
  style : e.attributes.lookup "style".toList = some (.text "dashed".toList) ↔
    n.kind = some .handler
  label : e.attributes.lookup "label".toList ≠ some (.text []) ↔ n.kind = some .caseLabel
  caseLabel : n.kind = some .caseLabel →
    e.attributes.lookup "label".toList = some (.text n.label)

theorem Edge.lookup_controlFlow (e : Edge) : e.attributes.lookup "controlflow_type".toList
    = some (.text e.style.controlFlow) := rfl

theorem Edge.lookup_style (e : Edge) :
    e.attributes.lookup "style".toList = some (.text e.style.name) := rfl

theorem Edge.lookup_label (e : Edge) :
    e.attributes.lookup "label".toList = some (.text (e.tag.getD [])) := rfl

theorem Node.FitsEdge.marks {n : Node} {e : Edge} (h : n.FitsEdge e) : e.Marks n := by
  have hlabel : e.attributes.lookup "label".toList
      = some (.text (if n.kind = some .caseLabel then n.label else [])) := by
    rw [e.lookup_label, h.tag]
    split <;> rfl
  refine ⟨h.target, ?_, ?_, ?_, fun hcase => by rw [hlabel, if_pos hcase]⟩
  · rw [e.lookup_controlFlow]
    by_cases hk : n.kind = some .handler
    · rw [h.dashed.2 hk]
      exact iff_of_true rfl hk
    · rw [h.solid.2 hk]
      exact iff_of_false (by decide) hk
  · rw [e.lookup_style]
    by_cases hk : n.kind = some .handler
    · rw [h.dashed.2 hk]
      exact iff_of_true rfl hk
    · rw [h.solid.2 hk]
      exact iff_of_false (by decide) hk
  · rw [hlabel]
    by_cases hk : n.kind = some .caseLabel
    · rw [if_pos hk]
      exact iff_of_true (fun heq => h.label hk (Value.text.inj (Option.some.inj heq))) hk
    · rw [if_neg hk]
      exact iff_of_false (fun hne => hne rfl) hk

/-! ## the exported graph -/

structure Flowchart.IsNodeLink (chart : Flowchart) (language : Text) (sorted : List Edge) :
    Prop where
  ids : chart.nodes.map Node.id = (List.range chart.nodes.length).map NodeId.node
  /-- the edges in order are those of the chart, each once -/
  perm : sorted.Perm chart.edges
  order : sorted.Pairwise Edge.Before
  nodes : (chart.toGraph language).nodes
    = ⟨.start, startAttributes⟩ :: chart.nodes.map Node.toGraphNode
  /-- the key of every edge is `0` -/
  edges : (chart.toGraph language).orderedEdges = sorted.map Edge.toGraphEdge
  json : (chart.toGraph language).toJson NodeId.name = chart.nodeLink language sorted
  loopFree : ∀ e ∈ chart.edges, e.source ≠ e.target
  marks : ∀ e ∈ chart.edges, ∃ n ∈ chart.nodes, e.Marks n

theorem Flowchart.toJson_asGraph {chart : Flowchart} {language : Text} {sorted : List Edge}
    (h : (chart.asGraph language).orderedEdges = sorted.map Edge.toGraphEdge) :
    (chart.asGraph language).toJson NodeId.name = chart.nodeLink language sorted := by
  have hnodes : (chart.asGraph language).nodes.map (GraphNode.toJson NodeId.name)
      = startRecord :: chart.nodes.map Node.record := by
    show (GraphNode.mk NodeId.start startAttributes
      :: chart.nodes.map Node.toGraphNode).map (GraphNode.toJson NodeId.name) = _
    rw [List.map_cons, List.map_map, toJson_start]
    exact congrArg _ (List.map_congr_left fun n _ => n.toJson_toGraphNode)
  have hedges : (chart.asGraph language).orderedEdges.map (GraphEdge.toJson NodeId.name true)
      = sorted.map Edge.record := by
    rw [h, List.map_map]
    exact List.map_congr_left fun e _ => e.toJson_toGraphEdge
  rw [Flowchart.nodeLink, ← hnodes, ← hedges]
  rfl

theorem Builder.Hung.isNodeLink {b : Builder} (hs : b.Sound) (h : b.Hung) (language : Text) :
    ∃ sorted, b.chart.IsNodeLink language sorted := by
  obtain ⟨sorted, hperm, horder, hedges⟩ := h.exists_sorted hs language
  have hgraph := h.toGraph_eq hs language
  refine ⟨sorted, hs.ids_eq, hperm, horder, ?_, ?_, ?_, (h.isRootedTree hs).loopFree,
    fun e he => ?_⟩
  · rw [hgraph]
    rfl
  · rw [hgraph, hedges]
  · rw [hgraph]
    exact Flowchart.toJson_asGraph hedges
  · obtain ⟨n, hn, hfit⟩ := exists_of_mem_left h.fits.flip he
    exact ⟨n, hn, hfit.marks⟩

/-- **the exported node-link graph is the flowchart**: its nodes as they were created, its edges
sorted by the creation of their ends -/
theorem exists_nodeLink (src language : Text) :
    ∃ sorted, (Flowchart.ofSource src).IsNodeLink language sorted := by
  obtain ⟨hsound, hhung⟩ := Builder.hung_performAll [.run src]
  exact hhung.isNodeLink hsound language

end CodeChart
