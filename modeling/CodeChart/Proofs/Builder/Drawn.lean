import CodeChart.Proofs.Builder.Step
import Mathlib.Data.List.Forall2

/-!
# The statements that nodes are drawn from

* `Node.DrawnFrom`          a node with the line of a statement, drawn from its text or from what is
                            left of that behind the closing braces;
* `Builder.feed_nodes`      a statement adds no node, or one that is drawn from it;
* `Builder.run_nodes`       so the nodes of a run are drawn from some of its statements, in order;
* `lines_of_drawn`          and have their lines.
-/

namespace CodeChart

def Node.DrawnFrom (n : Node) (s : Statement) : Prop :=
  ∃ id t, (t = s.text ∨ t = afterClosers s.text) ∧
    n = ⟨id, (Kind.ofText t).label t, (Kind.ofText t).category t, some (Kind.ofText t), s.line⟩

/-! ## one statement -/

theorem Builder.add_nodes (b : Builder) (k : Kind) (t : Text) (line : Int) :
    ∃ id, (b.add k t line).nodes = b.nodes ++ [⟨id, k.label t, k.category t, some k, line⟩] := by
  have hleave : (b.leaveFor k).nodes = b.nodes := by
    rcases b.leaveFor_cases k with h | h
    · rw [h]
    · rw [h, Builder.nodes_pop]
  obtain ⟨_, _, _, hsettle⟩ := ((b.leaveFor k).draw k t line).settle_fields k (k.placement t)
    (b.leaveFor k).nextId
  refine ⟨(b.leaveFor k).nextId, ?_⟩
  rw [Builder.add, hsettle, Builder.draw_eq]
  exact congrArg (· ++ _) hleave

theorem Builder.braces_nodes (b : Builder) (t : Text) : (b.braces t).1.nodes = b.nodes := by
  rcases b.braces_cases t with ⟨_, h⟩ | h
  · rw [h]
  · rw [h, Builder.nodes_pop]

/-- what is left to classify -/
theorem Builder.braces_text {b : Builder} {t u : Text} (h : (b.braces t).2 = some u) :
    u = t ∨ u = afterClosers t := by
  unfold Builder.braces at h
  split at h
  · cases h
  split at h
  · cases h
  split at h
  · cases h
  split at h
  · cases h
  split at h
  · simp only at h
    split at h
    · cases h
    · exact .inr (Option.some.inj h).symm
  · exact .inl (Option.some.inj h).symm

theorem Builder.feed_nodes (b : Builder) (s : Statement) :
    (b.feed s).nodes = b.nodes ∨
      ∃ n : Node, n.DrawnFrom s ∧ (b.feed s).nodes = b.nodes ++ [n] := by
  have hnodes := b.braces_nodes s.text
  unfold Builder.feed
  split
  · rename_i b' hb
    rw [hb] at hnodes
    exact .inl hnodes
  · rename_i b' t hb
    have ht := Builder.braces_text (b := b) (t := s.text) (u := t) (by rw [hb])
    rw [hb] at hnodes
    obtain ⟨id, hadd⟩ := b'.add_nodes (Kind.ofText t) t s.line
    refine .inr ⟨_, ⟨id, t, ht, rfl⟩, ?_⟩
    rw [hadd]
    exact congrArg (· ++ _) hnodes

/-! ## a run -/

theorem Builder.feedAll_nodes (b : Builder) (ss : List Statement) :
    ∃ drawn sources, (b.feedAll ss).nodes = b.nodes ++ drawn ∧ sources.Sublist ss ∧
      List.Forall₂ Node.DrawnFrom drawn sources := by
  induction ss generalizing b with
  | nil => exact ⟨[], [], (List.append_nil _).symm, .slnil, .nil⟩
  | cons s ss ih =>
    obtain ⟨drawn, sources, hnodes, hsub, hdrawn⟩ := ih (b.feed s)
    rw [Builder.feedAll_cons, hnodes]
    rcases b.feed_nodes s with h | ⟨n, hn, h⟩
    · exact ⟨drawn, sources, by rw [h], hsub.cons s, hdrawn⟩
    · exact ⟨n :: drawn, s :: sources, by rw [h, List.append_assoc]; rfl, hsub.cons_cons s,
        .cons hn hdrawn⟩

theorem Builder.run_nodes (b : Builder) (src : Text) :
    ∃ drawn sources, (b.run src).nodes = b.nodes ++ drawn ∧
      sources.Sublist (statements src) ∧ List.Forall₂ Node.DrawnFrom drawn sources := by
  obtain ⟨notices, hfinish⟩ := (b.feedAll (statements src)).finish_eq
  rw [Builder.run, hfinish]
  exact b.feedAll_nodes (statements src)

theorem lines_of_drawn {drawn : List Node} {sources : List Statement}
    (h : List.Forall₂ Node.DrawnFrom drawn sources) :
    drawn.map Node.line = sources.map fun s => (s.line : Int) := by
  induction h with
  | nil => rfl
  | cons hn _ ih =>
    obtain ⟨_, _, _, hn⟩ := hn
    rw [List.map_cons, List.map_cons, ih, hn]

end CodeChart
