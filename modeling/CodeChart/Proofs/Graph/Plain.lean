import CodeChart.Proofs.Graph.Growth
import Mathlib.Data.List.Induction

/-!
# Graphs of single edges

A graph that is no multigraph, and whose edges have no attributes, is known by its nodes and by the
pairs of nodes that it joins: adding a pair again changes nothing.

* `Graph.plain`         the graph of some nodes and pairs; `Graph.foldl_addEdge_plain` adds more
                        pairs to it, and each of them is there once;
* `Graph.rename`, `Graph.induced`   a graph with other names for its nodes, and what is left of it
                        on some of them;
* `Graph.IsSame`        the same graph, whatever the order of the edges;
                        `Graph.isSame_plain_iff` for two graphs with the same nodes.
-/

namespace CodeChart

/-! ## pairs, each once -/

section
variable {α : Type} [BEq α] [LawfulBEq α]

/-- what is not there yet comes last -/
def insertNew (seen : List α) (x : α) : List α := if x ∈ seen then seen else seen ++ [x]

theorem foldl_insertNew {seen : List α} (h : seen.Nodup) (new : List α) :
    new.foldl insertNew seen = (seen ++ new).eraseDups := by
  induction new using List.reverseRecOn with
  | nil => rw [List.foldl_nil, List.append_nil, eraseDups_of_nodup h]
  | append_singleton new x ih =>
    rw [List.foldl_concat, ih, ← List.append_assoc, eraseDups_concat, insertNew]
    simp only [List.mem_eraseDups]

end

namespace Graph

section
variable {ι κ : Type}

def plainEdge (ends : ι × ι) : GraphEdge ι := ⟨ends.1, ends.2, .number 0, []⟩

def plain (nodes : List (GraphNode ι)) (pairs : List (ι × ι)) : Graph ι :=
  ⟨false, [], nodes, pairs.map plainEdge⟩

theorem ends_plain (nodes : List (GraphNode ι)) (pairs : List (ι × ι)) :
    (plain nodes pairs).edges.map GraphEdge.ends = pairs := by
  show (pairs.map plainEdge).map GraphEdge.ends = pairs
  rw [List.map_map]
  exact List.map_id' pairs

/-! ## other names, fewer nodes -/

def rename (f : ι → κ) (g : Graph ι) : Graph κ where
  multi := g.multi
  attributes := g.attributes
  nodes := g.nodes.map fun n => ⟨f n.id, n.attributes⟩
  edges := g.edges.map fun e => ⟨f e.source, f e.target, e.key, e.attributes⟩

/-- the nodes that are kept, and the edges between them -/
def induced (keep : ι → Bool) (g : Graph ι) : Graph ι :=
  { g with
    nodes := g.nodes.filter fun n => keep n.id
    edges := g.edges.filter fun e => keep e.source && keep e.target }

theorem rename_plain (f : ι → κ) (nodes : List (GraphNode ι)) (pairs : List (ι × ι)) :
    (plain nodes pairs).rename f
      = plain (nodes.map fun n => ⟨f n.id, n.attributes⟩) (pairs.map (Prod.map f f)) := by
  rw [plain, plain, rename, List.map_map, List.map_map]
  rfl

theorem induced_plain (keep : ι → Bool) (nodes : List (GraphNode ι)) (pairs : List (ι × ι)) :
    (plain nodes pairs).induced keep
      = plain (nodes.filter fun n => keep n.id) (pairs.filter fun p => keep p.1 && keep p.2) := by
  rw [plain, plain, induced, List.filter_map]
  rfl

structure IsSame (g h : Graph ι) : Prop where
  multi : g.multi = h.multi
  attributes : g.attributes = h.attributes
  nodes : g.nodes = h.nodes
  edges : g.edges.Perm h.edges

theorem isSame_plain_iff {nodes : List (GraphNode ι)} {pairs others : List (ι × ι)}
    (hp : pairs.Nodup) (ho : others.Nodup) :
    (plain nodes pairs).IsSame (plain nodes others) ↔ ∀ p, p ∈ pairs ↔ p ∈ others := by
  rw [← List.perm_ext_iff_of_nodup hp ho]
  constructor
  · intro h
    have hends := h.edges.map GraphEdge.ends
    rwa [ends_plain, ends_plain] at hends
  · exact fun h => ⟨rfl, rfl, rfl, h.map plainEdge⟩

end

/-! ## adding edges -/

variable {ι : Type} [DecidableEq ι] {nodes : List (GraphNode ι)}

theorem addEdge_plain (pairs : List (ι × ι)) {p : ι × ι} (hs : p.1 ∈ nodes.map GraphNode.id)
    (ht : p.2 ∈ nodes.map GraphNode.id) :
    (plain nodes pairs).addEdge p.1 p.2 []
      = plain nodes (insertNew pairs p) := by
  have hput : (plain nodes pairs).addEdge p.1 p.2 []
      = (plain nodes pairs).putEdge p.1 p.2 (.number 0) [] := by
    rw [addEdge, ensureNode_of_mem (g := plain nodes pairs) hs,
      ensureNode_of_mem (g := plain nodes pairs) ht]
    rfl
  rw [hput, putEdge, insertNew]
  by_cases hp : p ∈ pairs
  · have hthere : ((plain nodes pairs).edgesBetween p.1 p.2).any
        (fun e => e.key = .number 0) = true := by
      refine List.any_eq_true.2 ⟨plainEdge p, List.mem_filter.2 ⟨?_, ?_⟩, ?_⟩
      · exact List.mem_map_of_mem hp
      · exact decide_eq_true ⟨rfl, rfl⟩
      · exact decide_eq_true rfl
    -- an update with no attributes leaves every edge as it is
    have hsame : (plain nodes pairs).edges.map (fun e =>
        if e.source = p.1 ∧ e.target = p.2 ∧ e.key = .number 0 then
          { e with attributes := Assoc.update e.attributes [] } else e)
        = (plain nodes pairs).edges := by
      refine (List.map_congr_left fun e _ => ?_).trans (List.map_id' _)
      split <;> rfl
    rw [if_pos hthere, if_pos hp, hsame]
  · have hends : (p.1, p.2) ∉ (plain nodes pairs).edges.map GraphEdge.ends := by
      rw [ends_plain]
      exact hp
    rw [edgesBetween_of_new hends, if_neg hp]
    show Graph.mk false [] nodes (pairs.map plainEdge ++ [p].map plainEdge) = _
    rw [← List.map_append]
    rfl

theorem foldl_addEdge_plain {pairs : List (ι × ι)} (h : pairs.Nodup) {new : List (ι × ι)}
    (hends : ∀ p ∈ new, p.1 ∈ nodes.map GraphNode.id ∧ p.2 ∈ nodes.map GraphNode.id) :
    new.foldl (fun g p => g.addEdge p.1 p.2 []) (plain nodes pairs)
      = plain nodes (pairs ++ new).eraseDups := by
  rw [← foldl_insertNew h]
  clear h
  induction new generalizing pairs with
  | nil => rfl
  | cons p new ih =>
    obtain ⟨hp, hnew⟩ := List.forall_mem_cons.1 hends
    rw [List.foldl_cons, List.foldl_cons, addEdge_plain pairs hp.1 hp.2, ih hnew]

end Graph

end CodeChart
