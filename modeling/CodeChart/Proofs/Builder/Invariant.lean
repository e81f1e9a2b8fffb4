import CodeChart.Proofs.Builder.Nesting

/-!
# The state of a builder is consistent

* `Builder.Sound`        the invariant: nodes are numbered in the order of their creation, the
                         records follow the nodes, the scopes are nested and hold ever newer nodes,
                         and every open switch is a node;
* `Builder.Sound.pop`, `Builder.Sound.draw`, `Builder.Sound.settle`, `Builder.Sound.add`   every
                         step keeps it;
* `Builder.Sound.performAll`   every sequence of calls keeps it;
* `Builder.Represented`  what the invariant says about the stacks, position by position.
-/

namespace CodeChart

/-! ## the invariant -/

structure Builder.Sound (b : Builder) : Prop where
  counter_eq : b.counter = b.nodes.length
  edges_eq : b.edges.length = b.nodes.length
  ids_eq : b.nodes.map Node.id = (List.range b.nodes.length).map NodeId.node
  lines_eq : b.lines = b.nodes.map fun n => (n.id, n.line)
  keys_eq : b.cases.map Prod.fst = (b.nodes.filter fun n => n.kind = some .switch).map Node.id
  nested : Nested (b.top :: b.outer) b.switches
  ascending : (b.top :: b.outer).Pairwise fun s u => u.id.Older s.id
  top_older : b.top.id.Older b.nextId
  headers : ∀ sw ∈ b.switches, ∃ n ∈ b.nodes, n.id = sw.header ∧ n.kind = some .switch

theorem Builder.Sound.fresh : Builder.fresh.Sound where
  counter_eq := rfl
  edges_eq := rfl
  ids_eq := rfl
  lines_eq := rfl
  keys_eq := rfl
  nested := .bottom .start
  ascending := List.pairwise_singleton _ _
  top_older := trivial
  headers := fun _ h => absurd h List.not_mem_nil

theorem Builder.Sound.nextId_not_mem {b : Builder} (h : b.Sound) :
    b.nextId ∉ b.nodes.map Node.id := by
  rw [h.ids_eq, Builder.nextId, h.counter_eq]
  intro hm
  obtain ⟨i, hi, he⟩ := List.mem_map.1 hm
  have hlt := List.mem_range.1 hi
  have heq : i = b.nodes.length := NodeId.node.inj he
  omega

theorem Builder.Sound.nextId_not_line {b : Builder} (h : b.Sound) :
    b.nextId ∉ b.lines.map Prod.fst := by
  rw [h.lines_eq, List.map_map]
  exact h.nextId_not_mem

theorem Builder.Sound.nextId_not_key {b : Builder} (h : b.Sound) :
    b.nextId ∉ b.cases.map Prod.fst := by
  rw [h.keys_eq]
  intro hm
  obtain ⟨n, hn, he⟩ := List.mem_map.1 hm
  exact h.nextId_not_mem (List.mem_map.2 ⟨n, (List.mem_filter.1 hn).1, he⟩)

theorem Builder.Sound.getElem_id {b : Builder} (h : b.Sound) {i : Nat} {n : Node}
    (hn : b.nodes[i]? = some n) : n.id = .node i := by
  have hi : i < b.nodes.length := (List.getElem?_eq_some_iff.1 hn).1
  have hm : (b.nodes.map Node.id)[i]? = some n.id := by rw [List.getElem?_map, hn]; rfl
  rw [h.ids_eq, List.getElem?_map, List.getElem?_range hi] at hm
  exact (Option.some.inj hm).symm

/-- every scope holds a node that is already made -/
theorem Builder.Sound.scope_older {b : Builder} (h : b.Sound) :
    ∀ s ∈ b.top :: b.outer, s.id.Older b.nextId := by
  intro s hs
  rcases List.mem_cons.1 hs with rfl | hs
  · exact h.top_older
  · exact ((List.pairwise_cons.1 h.ascending).1 s hs).trans h.top_older

/-! ## steps -/

theorem Builder.Sound.ignore {b : Builder} (h : b.Sound) (n : Nat) :
    Builder.Sound { b with ignored := n } := { h with }

theorem Builder.Sound.note {b : Builder} (h : b.Sound) (notices : List BuilderNotice) :
    Builder.Sound { b with notices := notices } := { h with }

theorem Builder.Sound.pop {b : Builder} (h : b.Sound) : b.pop.Sound := by
  rcases b.pop_cases with ⟨_, hp⟩ | ⟨s, rest, ho, hp⟩
  · rw [hp]
    exact h
  · rw [hp]
    have hne : b.outer ≠ [] := by rw [ho]; exact List.cons_ne_nil s rest
    have hasc := (List.pairwise_cons.1 h.ascending).2
    refine { h with nested := ?_, ascending := ?_, top_older := ?_, headers := ?_ }
    · have hn := h.nested.pop hne
      rw [ho] at hn
      exact hn
    · rw [ho] at hasc
      exact hasc
    · exact h.scope_older s (by rw [ho]; exact List.mem_cons_of_mem _ List.mem_cons_self)
    · intro sw hsw
      exact h.headers sw (Builder.mem_of_mem_switchesOutside hsw)

theorem Builder.Sound.leaveFor {b : Builder} (h : b.Sound) (k : Kind) : (b.leaveFor k).Sound := by
  rcases b.leaveFor_cases k with hl | hl
  · rw [hl]
    exact h
  · rw [hl]
    exact h.pop

/-- only a switch brings a new key -/
theorem Builder.keys_casesWith (b : Builder) (k : Kind) {id : NodeId}
    (h : id ∉ b.cases.map Prod.fst) :
    (b.casesWith k id).map Prod.fst
      = b.cases.map Prod.fst ++ (if k = .switch then [id] else []) := by
  unfold Builder.casesWith
  split
  · rw [Assoc.set_of_not_mem h, if_pos rfl, List.map_append]
    rfl
  · rw [List.map_map, if_neg (by decide), List.append_nil]
    apply List.map_congr_left
    intro e _
    simp only [Function.comp_apply]
    split <;> rfl
  · rename_i hs _
    rw [if_neg hs, List.append_nil]

theorem Builder.Sound.draw {b : Builder} (h : b.Sound) (k : Kind) (t : Text) (line : Int) :
    (b.draw k t line).Sound := by
  rw [Builder.draw_eq]
  refine { h with counter_eq := ?_, edges_eq := ?_, ids_eq := ?_, lines_eq := ?_, keys_eq := ?_,
                  top_older := ?_, headers := ?_ }
  · rw [List.length_append, ← h.counter_eq]
    rfl
  · rw [List.length_append, List.length_append, h.edges_eq]
    rfl
  · rw [List.map_append, List.length_append, List.length_singleton, List.range_succ,
      List.map_append, h.ids_eq, Builder.nextId, h.counter_eq]
    rfl
  · show Assoc.set b.lines b.nextId line = _
    rw [Assoc.set_of_not_mem h.nextId_not_line, List.map_append, h.lines_eq]
    rfl
  · show (b.casesWith k b.nextId).map Prod.fst = _
    rw [Builder.keys_casesWith b k h.nextId_not_key, List.filter_append, List.map_append, h.keys_eq]
    by_cases hk : k = .switch
    · simp [hk]
    · simp [hk]
  · exact h.top_older.trans (NodeId.older_succ (Nat.lt_succ_self b.counter))
  · intro sw hsw
    obtain ⟨n, hn, he⟩ := h.headers sw hsw
    exact ⟨n, List.mem_append_left _ hn, he⟩

/-- a node that is newer than the innermost one, and made already, can be put into the scopes -/
theorem Builder.Sound.settle {b : Builder} (h : b.Sound) {id : NodeId} (hold : b.top.id.Older id)
    (hnew : id.Older b.nextId) {k : Kind}
    (hk : k = .switch → ∃ n ∈ b.nodes, n.id = id ∧ n.kind = some .switch) (p : Placement) :
    (b.settle k p id).Sound := by
  have habove : ∀ s ∈ b.top :: b.outer, s.id.Older id := by
    intro s hs
    rcases List.mem_cons.1 hs with rfl | hs
    · exact hold
    · exact ((List.pairwise_cons.1 h.ascending).1 s hs).trans hold
  cases p with
  | nest =>
    rw [Builder.settle_nest]
    by_cases hs : k = .switch
    · subst hs
      refine { h with nested := ?_, ascending := ?_, top_older := hnew, headers := ?_ }
      · exact .switch (.inl rfl) h.nested
      · exact List.pairwise_cons.2 ⟨habove, h.ascending⟩
      · intro sw hsw
        rcases List.mem_cons.1 hsw with rfl | hsw
        · exact hk rfl
        · exact h.headers sw hsw
    · simp only [if_neg hs]
      refine { h with nested := ?_, ascending := ?_, top_older := hnew }
      · exact .plain hs h.nested
      · exact List.pairwise_cons.2 ⟨habove, h.ascending⟩
  | chain =>
    rw [Builder.settle_chain]
    refine { h with nested := ?_, ascending := ?_, top_older := hnew }
    · exact h.nested.replace hold
    · refine List.pairwise_cons.2 ⟨fun s hs => habove s (List.mem_cons_of_mem _ hs), ?_⟩
      exact (List.pairwise_cons.1 h.ascending).2
  | stay =>
    rw [Builder.settle_stay]
    exact h

theorem Builder.Sound.add {b : Builder} (h : b.Sound) (k : Kind) (t : Text) (line : Int) :
    (b.add k t line).Sound := by
  have hl := h.leaveFor k
  refine (hl.draw k t line).settle hl.top_older (NodeId.older_succ (Nat.lt_succ_self _)) ?_ _
  intro hk
  refine ⟨_, List.mem_append_right _ (List.mem_singleton_self _), rfl, ?_⟩
  rw [hk]

theorem Builder.Sound.feed {b : Builder} (h : b.Sound) (s : Statement) : (b.feed s).Sound :=
  Builder.feed_induction (fun _ n hb => hb.ignore n) (fun _ hb => hb.pop)
    (fun _ k t line hb => hb.add k t line) h s

theorem Builder.Sound.feedAll {b : Builder} (h : b.Sound) (ss : List Statement) :
    (b.feedAll ss).Sound :=
  Builder.feedAll_induction (fun _ n hb => hb.ignore n) (fun _ hb => hb.pop)
    (fun _ k t line hb => hb.add k t line) h ss

theorem Builder.Sound.performAll {b : Builder} (h : b.Sound) (calls : List Builder.Call) :
    (b.performAll calls).Sound :=
  Builder.performAll_induction (fun _ n hb => hb.ignore n) (fun _ hb => hb.pop)
    (fun _ k t line hb => hb.add k t line) (fun _ _ _ hb => hb.note _) h calls

theorem Builder.Reachable.sound {b : Builder} (h : b.Reachable) : b.Sound := by
  obtain ⟨calls, rfl⟩ := h
  exact Builder.Sound.fresh.performAll calls

/-! ## position by position -/

/-- the header that is current is that of the innermost open switch -/
def Builder.CurrentIsInnermost (b : Builder) : Prop :=
  ((∀ i : Nat, b.scopeKinds[i]? ≠ some (some .switch)) → b.currentSwitch = none) ∧
  ∀ i : Nat, b.scopeKinds[i]? = some (some .switch) →
    (∀ j, i < j → b.scopeKinds[j]? ≠ some (some .switch)) →
    ∃ sw ∈ b.switches, sw.depth = i + 1 ∧ b.currentSwitch = some sw.header

structure Builder.Represented (b : Builder) : Prop where
  /-- the stacks are equally high and never empty -/
  heights : b.scopeIds.length = b.scopeKinds.length ∧ 1 ≤ b.scopeIds.length
  /-- only the bottom scope has no kind -/
  kinds : ∀ i : Nat, i < b.scopeKinds.length → (b.scopeKinds[i]? = some none ↔ i = 0)
  /-- the nodes of the scopes get ever newer, so they are distinct and only the bottom one can be
  the start -/
  ascending : b.scopeIds.Pairwise NodeId.Older
  distinct : b.scopeIds.Nodup
  start : ∀ i : Nat, b.scopeIds[i]? = some .start → i = 0
  /-- the entries of the switches are those of the scopes that a switch opened -/
  depths : b.switches.reverse.map SwitchScope.depth = switchDepths b.scopeKinds
  headers : ∀ sw ∈ b.switches, (∃ n ∈ b.nodes, n.id = sw.header ∧ n.kind = some .switch) ∧
    sw.header ∈ b.cases.map Prod.fst ∧
    ∃ id, b.scopeIds[sw.depth - 1]? = some id ∧ (sw.header = id ∨ sw.header.Older id)
  current : b.CurrentIsInnermost
  /-- the counters and records agree with the nodes -/
  ignored : 0 ≤ (b.ignored : Int)
  counter : b.counter = b.nodes.length ∧ b.counter = b.edges.length
  ids : ∀ (i : Nat) (n : Node), b.nodes[i]? = some n → n.id = .node i
  lines : b.lines = b.nodes.map fun n => (n.id, n.line)
  keys : b.cases.map Prod.fst = (b.nodes.filter fun n => n.kind = some .switch).map Node.id

theorem Builder.Sound.depth_mem_iff {b : Builder} (h : b.Sound) {d : Nat} :
    (∃ sw ∈ b.switches, sw.depth = d) ↔ d ∈ switchDepths b.scopeKinds := by
  have hd := h.nested.depths_eq
  rw [Builder.scopeKinds, Builder.scopes, ← hd]
  simp

theorem Builder.Sound.currentIsInnermost {b : Builder} (h : b.Sound) : b.CurrentIsInnermost := by
  constructor
  · intro hno
    cases hs : b.switches with
    | nil => rw [Builder.currentSwitch, hs]; rfl
    | cons sw more =>
      have hm : sw.depth ∈ switchDepths b.scopeKinds :=
        h.depth_mem_iff.1 ⟨sw, by rw [hs]; exact List.mem_cons_self, rfl⟩
      obtain ⟨i, hi, _⟩ := mem_switchDepths.1 hm
      exact absurd hi (hno i)
  · intro i hi hlast
    obtain ⟨sw, hsw, hd⟩ := h.depth_mem_iff.2 (mem_switchDepths.2 ⟨i, hi, rfl⟩)
    cases hs : b.switches with
    | nil => rw [hs] at hsw; cases hsw
    | cons inner more =>
      have hn := h.nested
      rw [hs] at hn hsw
      have hm : inner.depth ∈ switchDepths b.scopeKinds :=
        h.depth_mem_iff.1 ⟨inner, by rw [hs]; exact List.mem_cons_self, rfl⟩
      obtain ⟨j, hj, hjd⟩ := mem_switchDepths.1 hm
      have hle : ¬ i < j := fun hij => hlast j hij hj
      -- the entry of position `i` is the head, since no entry of the tail is deeper
      rcases List.mem_cons.1 hsw with rfl | htail
      · exact ⟨sw, List.mem_cons_self, hd, by rw [Builder.currentSwitch, hs]; rfl⟩
      · have hlt := hn.head_deepest sw htail
        omega

theorem Builder.Sound.represented {b : Builder} (h : b.Sound) : b.Represented := by
  obtain ⟨bottom, rest, hscopes, hrest⟩ := h.nested.kinds
  have hids : b.scopeIds = bottom :: rest.map Scope.id := by
    rw [Builder.scopeIds, Builder.scopes, hscopes]
    rfl
  have hkinds : b.scopeKinds = none :: rest.map Scope.kind := by
    rw [Builder.scopeKinds, Builder.scopes, hscopes]
    rfl
  have hasc : b.scopeIds.Pairwise NodeId.Older := by
    rw [Builder.scopeIds, Builder.scopes, List.pairwise_map, List.pairwise_reverse]
    exact h.ascending
  refine ⟨?_, ?_, hasc, ?_, ?_, h.nested.depths_eq, ?_, h.currentIsInnermost, Int.natCast_nonneg _,
    ⟨h.counter_eq, h.counter_eq.trans h.edges_eq.symm⟩, fun _ _ hn => h.getElem_id hn, h.lines_eq,
    h.keys_eq⟩
  · rw [hids, hkinds]
    simp
  · intro i hi
    rw [hkinds] at hi ⊢
    cases i with
    | zero => simp
    | succ i =>
      rw [List.getElem?_cons_succ]
      refine ⟨fun hn => ?_, fun hi0 => absurd hi0 (Nat.succ_ne_zero i)⟩
      obtain ⟨s, hs, hk⟩ := List.mem_map.1 (List.mem_of_getElem? hn)
      exact absurd hk (hrest s hs)
  · refine hasc.imp ?_
    intro a c hac heq
    rw [heq] at hac
    exact NodeId.not_older_self c hac
  · intro i hi
    rw [hids] at hi hasc
    cases i with
    | zero => rfl
    | succ i =>
      rw [List.getElem?_cons_succ] at hi
      exact absurd ((List.pairwise_cons.1 hasc).1 _ (List.mem_of_getElem? hi))
        (NodeId.not_older_start bottom)
  · intro sw hsw
    obtain ⟨n, hn, hid, hkind⟩ := h.headers sw hsw
    obtain ⟨s, hs, hh⟩ := h.nested.header sw hsw
    refine ⟨⟨n, hn, hid, hkind⟩, ?_, s.id, ?_, hh⟩
    · rw [h.keys_eq, ← hid]
      exact List.mem_map.2 ⟨n, List.mem_filter.2 ⟨hn, decide_eq_true hkind⟩, rfl⟩
    · rw [Builder.scopeIds, Builder.scopes, List.getElem?_map, hs]
      rfl

/-- **every state that calls lead to is consistent**, whatever they are and in whatever order -/
theorem Builder.represented_performAll (calls : List Builder.Call) :
    (Builder.fresh.performAll calls).Represented :=
  (Builder.Sound.fresh.performAll calls).represented

end CodeChart
