import CodeChart.Graph.Basic
import CodeChart.Proofs.Distinct

/-!
# Graphs that only grow

A multigraph that gets each node once, and later no two edges with the same ends, holds them as
they came, and every edge has the key `0`.  If its edges moreover lead to ever later nodes, their
order is that of their ends.

* `Assoc.ofPairs_of_nodup`   pairs with distinct keys are a map already;
* `Graph.foldl_addNode`, `Graph.foldl_addEdge`   adding many nodes or edges, all of them new;
* `GraphEdge.Before`     the order of edges by their ends, given one of nodes;
* `Graph.orderedEdges_perm`, `Graph.orderedEdges_pairwise`   the edges of a graph in order.
-/

namespace CodeChart

/-! ## maps -/

namespace Assoc

variable {α β : Type} [DecidableEq α]

theorem update_of_nodup {m other : List (α × β)}
    (h : (m.map Prod.fst ++ other.map Prod.fst).Nodup) : update m other = m ++ other := by
  induction other generalizing m with
  | nil => exact (List.append_nil m).symm
  | cons e other ih =>
    have hnew : e.1 ∉ m.map Prod.fst := fun hm =>
      (List.nodup_append.1 h).2.2 e.1 hm e.1 List.mem_cons_self rfl
    have hrest : ((m ++ [(e.1, e.2)]).map Prod.fst ++ other.map Prod.fst).Nodup := by
      rw [List.map_append, List.append_assoc]
      exact h
    show update (set m e.1 e.2) other = m ++ e :: other
    rw [set_of_not_mem hnew, ih hrest, List.append_assoc]
    rfl

theorem ofPairs_of_nodup {pairs : List (α × β)} (h : (pairs.map Prod.fst).Nodup) :
    ofPairs pairs = pairs :=
  update_of_nodup (m := []) h

theorem erase_of_not_mem {m : List (α × β)} {key : α} (h : key ∉ m.map Prod.fst) :
    erase m key = m := by
  refine List.filter_eq_self.2 fun e he => decide_eq_true fun heq => h ?_
  exact heq ▸ List.mem_map_of_mem he

/-- what is set is found, however the keys are compared -/
theorem lookup_set_self [BEq α] [LawfulBEq α] (m : List (α × β)) (key : α) (v : β) :
    (set m key v).lookup key = some v := by
  induction m with
  | nil => exact List.lookup_cons_self
  | cons e rest ih =>
    rw [set]
    split
    · exact List.lookup_cons_self
    · rename_i hne
      have hother : (key == e.1) = false := beq_eq_false_iff_ne.2 fun h => hne h.symm
      rw [List.lookup_cons, hother, ih]

end Assoc

/-! ## growing -/

def GraphEdge.ends {ι : Type} (e : GraphEdge ι) : ι × ι := (e.source, e.target)

namespace Graph

variable {ι α : Type} [DecidableEq ι]

theorem hasNode_iff {g : Graph ι} {id : ι} :
    g.hasNode id = true ↔ id ∈ g.nodes.map GraphNode.id := by
  simp only [hasNode, List.any_eq_true, decide_eq_true_eq, List.mem_map]

theorem addNode_of_new {g : Graph ι} {id : ι} (h : id ∉ g.nodes.map GraphNode.id)
    (a : Attributes) :
    g.addNode id a = { g with nodes := g.nodes ++ [⟨id, Assoc.ofPairs a⟩] } := by
  rw [addNode, if_neg (mt hasNode_iff.1 h)]

theorem ensureNode_of_mem {g : Graph ι} {id : ι} (h : id ∈ g.nodes.map GraphNode.id) :
    g.ensureNode id = g := by
  rw [ensureNode, if_pos (hasNode_iff.2 h)]

theorem edgesBetween_of_new {g : Graph ι} {s t : ι} (h : (s, t) ∉ g.edges.map GraphEdge.ends) :
    g.edgesBetween s t = [] := by
  refine List.filter_eq_nil_iff.2 fun e he hends => h ?_
  obtain ⟨rfl, rfl⟩ := of_decide_eq_true hends
  exact List.mem_map_of_mem he

/-- the first edge between two nodes gets the key `0` -/
theorem addEdge_of_new {g : Graph ι} {s t : ι} {a : Attributes} (hmulti : g.multi = true)
    (hs : s ∈ g.nodes.map GraphNode.id) (ht : t ∈ g.nodes.map GraphNode.id)
    (hends : (s, t) ∉ g.edges.map GraphEdge.ends) (hkey : keyName ∉ a.map Prod.fst) :
    g.addEdge s t a
      = { g with edges := g.edges ++ [⟨s, t, .number 0, Assoc.ofPairs a⟩] } := by
  have hbetween := edgesBetween_of_new hends
  have hfree : g.keyFor s t a = .number 0 := by
    rw [keyFor, List.lookup_eq_none_iff.2 ?_, hbetween]
    · rfl
    · intro e he
      exact bne_iff_ne.2 fun heq => hkey (heq ▸ List.mem_map_of_mem he)
  rw [addEdge, ensureNode_of_mem hs, ensureNode_of_mem ht, if_pos hmulti, hfree,
    Assoc.erase_of_not_mem hkey, putEdge, hbetween]
  rfl

theorem foldl_addNode (g : Graph ι) (id : α → ι) (attributes : α → Attributes) {items : List α}
    (h : (g.nodes.map GraphNode.id ++ items.map id).Nodup) :
    items.foldl (fun g x => g.addNode (id x) (attributes x)) g
      = { g with nodes := g.nodes ++ items.map fun x => ⟨id x, Assoc.ofPairs (attributes x)⟩ } := by
  induction items generalizing g with
  | nil => rw [List.map_nil, List.append_nil, List.foldl_nil]
  | cons x items ih =>
    have hnew : id x ∉ g.nodes.map GraphNode.id := fun hm =>
      (List.nodup_append.1 h).2.2 _ hm _ List.mem_cons_self rfl
    rw [List.foldl_cons, addNode_of_new hnew, ih]
    · simp only [List.map_cons, List.append_assoc, List.singleton_append]
    · rw [List.map_append, List.append_assoc]
      exact h

theorem foldl_addEdge (g : Graph ι) (source target : α → ι) (attributes : α → Attributes)
    {items : List α} (hmulti : g.multi = true)
    (hends : (g.edges.map GraphEdge.ends ++ items.map fun x => (source x, target x)).Nodup)
    (hnodes : ∀ x ∈ items, source x ∈ g.nodes.map GraphNode.id ∧
      target x ∈ g.nodes.map GraphNode.id)
    (hkeys : ∀ x ∈ items, keyName ∉ (attributes x).map Prod.fst) :
    items.foldl (fun g x => g.addEdge (source x) (target x) (attributes x)) g
      = { g with edges := g.edges ++ items.map fun x =>
          ⟨source x, target x, .number 0, Assoc.ofPairs (attributes x)⟩ } := by
  induction items generalizing g with
  | nil => rw [List.map_nil, List.append_nil, List.foldl_nil]
  | cons x items ih =>
    obtain ⟨hx, hnodes⟩ := List.forall_mem_cons.1 hnodes
    obtain ⟨hkey, hkeys⟩ := List.forall_mem_cons.1 hkeys
    have hnew : (source x, target x) ∉ g.edges.map GraphEdge.ends := fun hm =>
      (List.nodup_append.1 hends).2.2 _ hm _ List.mem_cons_self rfl
    rw [List.foldl_cons, addEdge_of_new hmulti hx.1 hx.2 hnew hkey, ih]
    · simp only [List.map_cons, List.append_assoc, List.singleton_append]
    · exact hmulti
    · rw [List.map_append, List.append_assoc]
      exact hends
    · exact hnodes
    · exact hkeys

end Graph

/-! ## order -/

/-- by the source, then by the target -/
def GraphEdge.Before {ι : Type} (r : ι → ι → Prop) (e f : GraphEdge ι) : Prop :=
  r e.source f.source ∨ e.source = f.source ∧ r e.target f.target

instance {ι : Type} {r : ι → ι → Prop} [Std.Irrefl r] : Std.Irrefl (GraphEdge.Before r) where
  irrefl e h := h.elim (irrefl e.source) fun hsame => irrefl e.target hsame.2

namespace Graph

variable {ι : Type} [DecidableEq ι] {g : Graph ι}

theorem edgesFrom_of_nodup (h : (g.edges.map GraphEdge.target).Nodup) (s : ι) :
    g.edgesFrom s = g.edges.filter fun e => e.source = s := by
  have hout : ((g.edges.filter fun e => e.source = s).map GraphEdge.target).Nodup :=
    (List.filter_sublist.map _).nodup h
  rw [edgesFrom, successors, eraseDups_of_nodup hout, flatMap_filter_of_nodup hout]

theorem orderedEdges_perm (hnodes : (g.nodes.map GraphNode.id).Nodup)
    (hsources : ∀ e ∈ g.edges, e.source ∈ g.nodes.map GraphNode.id) :
    g.orderedEdges.Perm g.edges := by
  have hfrom : ∀ s, (g.edgesFrom s).Perm (g.edges.filter fun e => e.source = s) := fun s =>
    flatMap_filter_perm (nodup_eraseDups _) fun e he =>
      List.mem_eraseDups.2 (List.mem_map_of_mem he)
  have hnodes' : g.orderedEdges.Perm
      ((g.nodes.map GraphNode.id).flatMap fun s => g.edges.filter fun e => e.source = s) := by
    rw [orderedEdges, List.flatMap_map]
    exact List.Perm.flatMap_left _ fun n _ => hfrom n.id
  exact hnodes'.trans (flatMap_filter_perm hnodes hsources)

variable {r : ι → ι → Prop} [Std.Irrefl r]

theorem orderedEdges_pairwise (hnodes : (g.nodes.map GraphNode.id).Pairwise r)
    (htargets : (g.edges.map GraphEdge.target).Pairwise r) :
    g.orderedEdges.Pairwise (GraphEdge.Before r) := by
  rw [orderedEdges, List.pairwise_flatMap]
  constructor
  · intro n _
    rw [edgesFrom_of_nodup htargets.nodup]
    refine List.Pairwise.imp_of_mem ?_ ((List.pairwise_map.1 htargets).sublist List.filter_sublist)
    intro e f he hf htarget
    have hes := of_decide_eq_true (List.mem_filter.1 he).2
    have hfs := of_decide_eq_true (List.mem_filter.1 hf).2
    exact .inr ⟨hes.trans hfs.symm, htarget⟩
  · refine (List.pairwise_map.1 hnodes).imp fun hsource e he f hf => .inl ?_
    rw [(mem_edgesFrom.1 he).2, (mem_edgesFrom.1 hf).2]
    exact hsource

end Graph

end CodeChart
