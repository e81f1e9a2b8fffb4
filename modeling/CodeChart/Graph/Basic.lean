import CodeChart.Assoc
import CodeChart.Text.Basic

/-!
# Directed graphs with attributes

Graphs are kept by a library.  The definitions here stand for it; what they assume of its
documented behaviour is the following.

* Nodes, edges and attributes keep the order in which they came, and adding what is already there
  updates its attributes, a new attribute coming last (`Graph.addNode`, `Graph.putEdge`).
* An edge brings the ends that are missing with it, the source first (`Graph.addEdge`).
* Only in a multigraph may two nodes have several edges, which are told apart by their keys.  An
  edge can bring its key as an attribute; else it gets the least number that is no key yet, counted
  from the number of edges between the two on (`Graph.keyFor`).
* The edges are listed by source, then by target in the order of the first edge to it, then in the
  order in which they came; `mem_orderedEdges` says that these are the edges between nodes of the
  graph, no others.
* In the view without directions the neighbours of a node are its successors and its predecessors,
  each once (`Graph.neighbours`).  Their order there is not documented; nothing may rely on the one
  that is taken here.
-/

namespace CodeChart

/-! ## attributes -/

inductive Value where
  | text (t : Text)
  | number (n : Int)
  deriving DecidableEq, Repr

def Value.toText : Value → Text
  | .text t => t
  | .number n => signedDecimal n

abbrev Attributes := List (Text × Value)

/-! ## graphs -/

structure GraphNode (ι : Type) where
  id : ι
  attributes : Attributes
  deriving DecidableEq, Repr

/-- no two edges of a graph have the same ends and the same key -/
structure GraphEdge (ι : Type) where
  source : ι
  target : ι
  key : Value
  attributes : Attributes
  deriving DecidableEq, Repr

structure Graph (ι : Type) where
  multi : Bool
  attributes : Attributes
  nodes : List (GraphNode ι)
  edges : List (GraphEdge ι)
  deriving DecidableEq, Repr

namespace Graph

variable {ι : Type} [DecidableEq ι]

def empty (multi : Bool) (attributes : Attributes) : Graph ι := ⟨multi, attributes, [], []⟩

def hasNode (g : Graph ι) (id : ι) : Bool := g.nodes.any fun n => n.id = id

/-- a node that is there already has its attributes updated -/
def addNode (g : Graph ι) (id : ι) (a : Attributes) : Graph ι :=
  if g.hasNode id then
    { g with nodes := g.nodes.map fun n =>
        if n.id = id then { n with attributes := Assoc.update n.attributes a } else n }
  else { g with nodes := g.nodes ++ [⟨id, Assoc.ofPairs a⟩] }

/-- a node that is missing comes in without attributes -/
def ensureNode (g : Graph ι) (id : ι) : Graph ι :=
  if g.hasNode id then g else { g with nodes := g.nodes ++ [⟨id, []⟩] }

def edgesBetween (g : Graph ι) (s t : ι) : List (GraphEdge ι) :=
  g.edges.filter fun e => e.source = s ∧ e.target = t

def keyName : Text := "key".toList

/-- the least number that is no key yet, counted from the number of keys on -/
def freeKey (used : List Value) : Nat :=
  let candidates := (List.range (used.length + 1)).map (used.length + ·)
  (candidates.find? fun (n : Nat) => !used.contains (.number n)).getD used.length

/-- an edge that is there already has its attributes updated -/
def putEdge (g : Graph ι) (s t : ι) (key : Value) (a : Attributes) : Graph ι :=
  if (g.edgesBetween s t).any fun e => e.key = key then
    { g with edges := g.edges.map fun e =>
        if e.source = s ∧ e.target = t ∧ e.key = key then
          { e with attributes := Assoc.update e.attributes a }
        else e }
  else { g with edges := g.edges ++ [⟨s, t, key, Assoc.ofPairs a⟩] }

def keyFor (g : Graph ι) (s t : ι) (a : Attributes) : Value :=
  (a.lookup keyName).getD (.number (freeKey ((g.edgesBetween s t).map GraphEdge.key)))

/-- the ends come in first if they are missing -/
def addEdge (g : Graph ι) (s t : ι) (a : Attributes) : Graph ι :=
  let g := (g.ensureNode s).ensureNode t
  if g.multi then g.putEdge s t (g.keyFor s t a) (Assoc.erase a keyName)
  else g.putEdge s t (.number 0) a

/-! ## order -/

/-- where the edges from `s` lead, each target once -/
def successors (g : Graph ι) (s : ι) : List ι :=
  ((g.edges.filter fun e => e.source = s).map GraphEdge.target).eraseDups

/-- where the edges to `t` come from, each source once -/
def predecessors (g : Graph ι) (t : ι) : List ι :=
  ((g.edges.filter fun e => e.target = t).map GraphEdge.source).eraseDups

/-- what is joined to a node when directions do not count: both sides together, each node once -/
def neighbours (g : Graph ι) (id : ι) : List ι :=
  (g.successors id ++ g.predecessors id).eraseDups

/-- the edges from `s`, those to one target together -/
def edgesFrom (g : Graph ι) (s : ι) : List (GraphEdge ι) :=
  let out := g.edges.filter fun e => e.source = s
  (g.successors s).flatMap fun t => out.filter fun e => e.target = t

def orderedEdges (g : Graph ι) : List (GraphEdge ι) := g.nodes.flatMap fun n => g.edgesFrom n.id

def hasSelfLoop (g : Graph ι) : Bool := g.edges.any fun e => e.source = e.target

def isConnected (g : Graph ι) (id : ι) : Bool :=
  g.edges.any fun e => e.source = id ∨ e.target = id

theorem mem_edgesFrom {g : Graph ι} {s : ι} {e : GraphEdge ι} :
    e ∈ g.edgesFrom s ↔ e ∈ g.edges ∧ e.source = s := by
  simp only [edgesFrom, successors, List.mem_flatMap, List.mem_eraseDups, List.mem_map,
    List.mem_filter, decide_eq_true_eq]
  constructor
  · rintro ⟨_, _, h, _⟩
    exact h
  · intro h
    exact ⟨e.target, ⟨e, h, rfl⟩, h, rfl⟩

theorem mem_orderedEdges {g : Graph ι} {e : GraphEdge ι} :
    e ∈ g.orderedEdges ↔ e ∈ g.edges ∧ g.hasNode e.source = true := by
  simp only [orderedEdges, List.mem_flatMap, mem_edgesFrom, hasNode, List.any_eq_true,
    decide_eq_true_eq]
  constructor
  · rintro ⟨n, hn, he, hs⟩
    exact ⟨he, n, hn, hs.symm⟩
  · rintro ⟨he, n, hn, hs⟩
    exact ⟨n, hn, he, hs.symm⟩

/-! ## attributes of all nodes and edges -/

def mapNodes (g : Graph ι) (f : Attributes → Attributes) : Graph ι :=
  { g with nodes := g.nodes.map fun n => { n with attributes := f n.attributes } }

def mapEdges (g : Graph ι) (f : Attributes → Attributes) : Graph ι :=
  { g with edges := g.edges.map fun e => { e with attributes := f e.attributes } }

end Graph

end CodeChart
