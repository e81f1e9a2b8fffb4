import CodeChart.Proofs.Builder.Invariant
import CodeChart.Proofs.Pairing
import Mathlib.Data.List.Nodup
import Mathlib.Logic.Relation

/-!
# A flowchart is a tree

Every node is made together with the one edge that leads to it, and that edge comes from an older
node.

* `Node.FitsEdge`       an edge that leads to a node from an older one, and looks as the kind of
                        the node asks;
* `Builder.Hung`        the edges fit the nodes, one by one, and no edge was ever refused;
* `Builder.Sound.hung_draw`, `Builder.Hung.add`   a statement keeps this;
* `Flowchart.RootedTree`   what follows for the chart as a graph: it is a tree whose root is the
                        start node.
-/

namespace CodeChart

open Relation

/-! ## an edge for every node -/

structure Node.FitsEdge (n : Node) (e : Edge) : Prop where
  target : e.target = n.id
  source : e.source.Older n.id
  dashed : e.style = .dashed ↔ n.kind = some .handler
  solid : e.style = .solid ↔ n.kind ≠ some .handler
  tag : e.tag = if n.kind = some .caseLabel then some n.label else none
  label : n.kind = some .caseLabel → n.label ≠ []

structure Builder.Hung (b : Builder) : Prop where
  fits : List.Forall₂ Node.FitsEdge b.nodes b.edges
  kept : ∀ source target, .danglingEdge source target ∉ b.notices

theorem Builder.Hung.fresh : Builder.fresh.Hung := ⟨.nil, fun _ _ h => absurd h List.not_mem_nil⟩

theorem Kind.label_caseLabel_ne_nil (t : Text) : Kind.label .caseLabel t ≠ [] := by
  show (if "default".toList.isPrefixOf t then "Default".toList
    else trim ("Case ".toList ++ caseValue t)) ≠ []
  split
  · exact List.cons_ne_nil _ _
  · have hC : isBlank 'C' = false := by decide
    show trim ('C' :: ("ase ".toList ++ caseValue t)) ≠ []
    rw [trim_cons_of_visible hC]
    exact List.cons_ne_nil _ _

/-- a statement hangs on a node that is already made -/
theorem Builder.Sound.source_older {b : Builder} (h : b.Sound) (k : Kind) :
    (b.sourceFor k).Older b.nextId := by
  have hheader : (b.currentSwitch.getD b.top.id).Older b.nextId := by
    cases hs : b.switches with
    | nil =>
      rw [Builder.currentSwitch, hs]
      exact h.top_older
    | cons sw more =>
      rw [Builder.currentSwitch, hs]
      obtain ⟨n, hn, hid, _⟩ := h.headers sw (by rw [hs]; exact List.mem_cons_self)
      obtain ⟨i, hi⟩ := List.getElem?_of_mem hn
      have hlt : i < b.nodes.length := (List.getElem?_eq_some_iff.1 hi).1
      show sw.header.Older b.nextId
      rw [← hid, h.getElem_id hi, Builder.nextId, h.counter_eq]
      exact hlt
  cases k with
  | caseLabel => exact hheader
  | _ => exact h.top_older

theorem Builder.Sound.hung_draw {b : Builder} (h : b.Sound) (hb : b.Hung) (k : Kind) (t : Text)
    (line : Int) : (b.draw k t line).Hung := by
  rw [Builder.draw_eq]
  refine ⟨?_, hb.kept⟩
  have hfit : Node.FitsEdge ⟨b.nextId, k.label t, k.category t, some k, line⟩
      ⟨b.sourceFor k, b.nextId, k.edgeStyle, k.edgeTag t⟩ := by
    refine ⟨rfl, h.source_older k, ?_, ?_, ?_, ?_⟩
    · simp [Kind.edgeStyle_eq]
    · simp [Kind.edgeStyle_eq]
    · simp [Kind.edgeTag_eq]
    · intro hk
      have hk' : k = .caseLabel := Option.some.inj hk
      subst hk'
      exact Kind.label_caseLabel_ne_nil t
  exact List.rel_append hb.fits (.cons hfit .nil)

theorem Builder.Hung.pop {b : Builder} (h : b.Hung) : b.pop.Hung := by
  rcases b.pop_cases with ⟨_, hp⟩ | ⟨s, rest, _, hp⟩
  · rw [hp]
    exact h
  · rw [hp]
    exact ⟨h.fits, h.kept⟩

theorem Builder.Hung.leaveFor {b : Builder} (h : b.Hung) (k : Kind) : (b.leaveFor k).Hung := by
  rcases b.leaveFor_cases k with hl | hl
  · rw [hl]
    exact h
  · rw [hl]
    exact h.pop

theorem Builder.Hung.settle {b : Builder} (h : b.Hung) (k : Kind) (p : Placement) (id : NodeId) :
    (b.settle k p id).Hung := by
  obtain ⟨top, outer, switches, hs⟩ := b.settle_fields k p id
  rw [hs]
  exact ⟨h.fits, h.kept⟩

theorem Builder.Hung.add {b : Builder} (hs : b.Sound) (h : b.Hung) (k : Kind) (t : Text)
    (line : Int) : (b.add k t line).Hung :=
  ((hs.leaveFor k).hung_draw (h.leaveFor k) k t line).settle k _ _

theorem Builder.Hung.note {b : Builder} (h : b.Hung) (scopes ignored : Nat) :
    Builder.Hung { b with notices := b.notices ++ [.unfinished scopes ignored] } := by
  refine ⟨h.fits, fun source target hm => ?_⟩
  rcases List.mem_append.1 hm with hm | hm
  · exact h.kept source target hm
  · cases List.mem_singleton.1 hm

theorem Builder.hung_performAll (calls : List Builder.Call) :
    (Builder.fresh.performAll calls).Sound ∧ (Builder.fresh.performAll calls).Hung :=
  Builder.performAll_induction (P := fun b => b.Sound ∧ b.Hung)
    (fun _ n hb => ⟨hb.1.ignore n, hb.2.fits, hb.2.kept⟩)
    (fun _ hb => ⟨hb.1.pop, hb.2.pop⟩)
    (fun _ k t line hb => ⟨hb.1.add k t line, hb.2.add hb.1 k t line⟩)
    (fun _ scopes ignored hb => ⟨hb.1.note _, hb.2.note scopes ignored⟩)
    ⟨.fresh, .fresh⟩ calls

theorem Builder.hung_feedAll (ss : List Statement) :
    (Builder.fresh.feedAll ss).Sound ∧ (Builder.fresh.feedAll ss).Hung :=
  Builder.feedAll_induction (P := fun b => b.Sound ∧ b.Hung)
    (fun _ n hb => ⟨hb.1.ignore n, hb.2.fits, hb.2.kept⟩)
    (fun _ hb => ⟨hb.1.pop, hb.2.pop⟩)
    (fun _ k t line hb => ⟨hb.1.add k t line, hb.2.add hb.1 k t line⟩)
    ⟨.fresh, .fresh⟩ ss

/-! ## the chart as a graph -/

def Flowchart.Linked (chart : Flowchart) (a b : NodeId) : Prop :=
  ∃ e ∈ chart.edges, e.source = a ∧ e.target = b

structure Flowchart.RootedTree (chart : Flowchart) : Prop where
  sizes : chart.edges.length = chart.nodes.length
  ids : ∀ (i : Nat) (n : Node), chart.nodes[i]? = some n → n.id = .node i
  targets : ∀ (i : Nat) (e : Edge), chart.edges[i]? = some e → e.target = .node i
  sources : ∀ (i : Nat) (e : Edge), chart.edges[i]? = some e →
    e.source = .start ∨ ∃ j, j < i ∧ e.source = .node j
  reachable : ∀ n ∈ chart.nodes, ReflTransGen chart.Linked .start n.id
  acyclic : ∀ id, ¬ TransGen chart.Linked id id
  parallelFree : (chart.edges.map fun e => (e.source, e.target)).Nodup
  loopFree : ∀ e ∈ chart.edges, e.source ≠ e.target
  /-- a dashed edge leads to an exception handler, an edge with a tag to a case label -/
  marks : ∀ (i : Nat) (n : Node) (e : Edge), chart.nodes[i]? = some n → chart.edges[i]? = some e →
    (e.style = .dashed ↔ n.kind = some .handler) ∧ (e.tag.isSome ↔ n.kind = some .caseLabel) ∧
    ∀ tag, e.tag = some tag → tag = n.label ∧ tag ≠ []

theorem targets_of_fits {nodes : List Node} {edges : List Edge}
    (h : List.Forall₂ Node.FitsEdge nodes edges) : edges.map Edge.target = nodes.map Node.id := by
  induction h with
  | nil => rfl
  | cons hfit _ ih => rw [List.map_cons, List.map_cons, hfit.target, ih]

/-- the node that an edge leads to stands at the same place -/
theorem Builder.Hung.node_of_edge {b : Builder} (h : b.Hung) {i : Nat} {e : Edge}
    (he : b.edges[i]? = some e) : ∃ n, b.nodes[i]? = some n ∧ n.FitsEdge e := by
  have hi : i < b.nodes.length := by
    rw [h.fits.length_eq]
    exact (List.getElem?_eq_some_iff.1 he).1
  have hn : b.nodes[i]? = some b.nodes[i] := List.getElem?_eq_getElem hi
  exact ⟨_, hn, forall₂_of_getElem? h.fits hn he⟩

theorem Builder.Hung.edge_of_node {b : Builder} (h : b.Hung) {i : Nat} {n : Node}
    (hn : b.nodes[i]? = some n) : ∃ e, b.edges[i]? = some e ∧ n.FitsEdge e := by
  have hi : i < b.edges.length := by
    rw [← h.fits.length_eq]
    exact (List.getElem?_eq_some_iff.1 hn).1
  have he : b.edges[i]? = some b.edges[i] := List.getElem?_eq_getElem hi
  exact ⟨_, he, forall₂_of_getElem? h.fits hn he⟩

theorem Builder.Hung.older_of_linked {b : Builder} (h : b.Hung) {a c : NodeId}
    (hac : b.chart.Linked a c) : a.Older c := by
  obtain ⟨e, he, rfl, rfl⟩ := hac
  obtain ⟨i, hi⟩ := List.getElem?_of_mem he
  obtain ⟨n, _, hf⟩ := h.node_of_edge hi
  rw [hf.target]
  exact hf.source

theorem Builder.Hung.older_of_path {b : Builder} (h : b.Hung) {a c : NodeId}
    (hac : TransGen b.chart.Linked a c) : a.Older c := by
  induction hac with
  | single hl => exact h.older_of_linked hl
  | tail _ hl ih => exact ih.trans (h.older_of_linked hl)

/-- by induction on the number of the node, since an edge comes from the start or an older node -/
theorem Builder.Hung.reaches {b : Builder} (hs : b.Sound) (h : b.Hung) :
    ∀ (i : Nat) (n : Node), b.nodes[i]? = some n → ReflTransGen b.chart.Linked .start n.id := by
  intro i
  induction i using Nat.strongRecOn with
  | ind i ih =>
    intro n hn
    obtain ⟨e, he, hf⟩ := h.edge_of_node hn
    have hlast : b.chart.Linked e.source n.id := ⟨e, List.mem_of_getElem? he, rfl, hf.target⟩
    have hsrc := hf.source
    rw [hs.getElem_id hn] at hsrc
    rcases NodeId.older_node_iff.1 hsrc with hroot | ⟨j, hj, hnode⟩
    · rw [hroot] at hlast
      exact .single hlast
    · have hlen : j < b.nodes.length := Nat.lt_trans hj (List.getElem?_eq_some_iff.1 hn).1
      have hprev := ih j hj _ (List.getElem?_eq_getElem hlen)
      rw [hs.getElem_id (List.getElem?_eq_getElem hlen), ← hnode] at hprev
      exact hprev.tail hlast

theorem Builder.Hung.nodup_targets {b : Builder} (hs : b.Sound) (h : b.Hung) :
    (b.edges.map Edge.target).Nodup := by
  rw [targets_of_fits h.fits, hs.ids_eq]
  exact List.nodup_range.map fun _ _ hij => NodeId.node.inj hij

theorem Builder.Hung.isRootedTree {b : Builder} (hs : b.Sound) (h : b.Hung) :
    b.chart.RootedTree where
  sizes := hs.edges_eq
  ids _ _ hn := hs.getElem_id hn
  targets i e he := by
    obtain ⟨n, hn, hf⟩ := h.node_of_edge he
    rw [hf.target, hs.getElem_id hn]
  sources i e he := by
    obtain ⟨n, hn, hf⟩ := h.node_of_edge he
    have hsrc := hf.source
    rw [hs.getElem_id hn] at hsrc
    exact NodeId.older_node_iff.1 hsrc
  reachable n hn := by
    obtain ⟨i, hi⟩ := List.getElem?_of_mem hn
    exact h.reaches hs i n hi
  acyclic id hpath := NodeId.not_older_self id (h.older_of_path hpath)
  parallelFree := by
    have hmap : b.edges.map Edge.target
        = (b.edges.map fun e => (e.source, e.target)).map Prod.snd := by
      rw [List.map_map]
      rfl
    exact List.Nodup.of_map Prod.snd (hmap ▸ h.nodup_targets hs)
  loopFree e he heq := by
    have hold := h.older_of_linked ⟨e, he, rfl, rfl⟩
    rw [heq] at hold
    exact NodeId.not_older_self _ hold
  marks i n e hn he := by
    have hf := forall₂_of_getElem? h.fits hn he
    have htag := hf.tag
    refine ⟨hf.dashed, ?_, ?_⟩
    · rw [htag]
      split <;> simp_all
    · intro tag ht
      rw [htag] at ht
      split at ht
      · rename_i hk
        obtain rfl := Option.some.inj ht
        exact ⟨rfl, hf.label hk⟩
      · cases ht

/-- **a flowchart is a tree rooted at the start**, for a source text as for any calls in any order,
and no edge is ever asked for whose end is missing -/
theorem Builder.rootedTree :
    (∀ src : Text, (Flowchart.ofSource src).RootedTree ∧
      ∀ source target, .danglingEdge source target ∉ (Builder.ofSource src).notices) ∧
    ∀ calls : List Builder.Call, (Builder.fresh.performAll calls).chart.RootedTree ∧
      ∀ source target, .danglingEdge source target ∉ (Builder.fresh.performAll calls).notices := by
  have hcalls : ∀ calls : List Builder.Call,
      (Builder.fresh.performAll calls).chart.RootedTree ∧ ∀ source target,
        .danglingEdge source target ∉ (Builder.fresh.performAll calls).notices := by
    intro calls
    obtain ⟨hs, h⟩ := Builder.hung_performAll calls
    exact ⟨h.isRootedTree hs, h.kept⟩
  exact ⟨fun src => hcalls [.run src], hcalls⟩

end CodeChart
