import CodeChart.Proofs.Builder.Step

/-!
# Nested scopes

* `NodeId.Older`       the order of creation, in which the start node comes first;
* `Nested`             scopes, innermost first, with the switches that are open among them: the
                       bottom scope has no kind, every other one has, and every scope of a switch
                       has an entry with its depth and a header that is not newer than the node
                       it holds now;
* `Nested.pop`, `Nested.replace`   leaving the innermost scope and replacing its node keep this;
* `Nested.depths_eq`   the entries are those of the scopes of switches, and no others.
-/

namespace CodeChart

/-! ## the order of creation -/

def NodeId.Older : NodeId → NodeId → Prop
  | .start, .node _ => True
  | .node i, .node j => i < j
  | _, _ => False

theorem NodeId.Older.trans {a b c : NodeId} (hab : a.Older b) (hbc : b.Older c) : a.Older c := by
  cases a with
  | start =>
    cases b with
    | start => exact hbc
    | node j =>
      cases c with
      | node k => trivial
      | start => exact hbc
      | named t => exact hbc
    | named t => exact hab.elim
  | node i =>
    cases b with
    | node j =>
      cases c with
      | node k => exact Nat.lt_trans hab hbc
      | start => exact hbc
      | named t => exact hbc
    | start => exact hab.elim
    | named t => exact hab.elim
  | named t => exact hab.elim

theorem NodeId.not_older_self (a : NodeId) : ¬ a.Older a := by
  cases a with
  | start => exact id
  | node i => exact Nat.lt_irrefl i
  | named t => exact id

theorem NodeId.not_older_start (a : NodeId) : ¬ a.Older .start := by
  cases a <;> exact id

/-- what is older than a node is the start node or an earlier node -/
theorem NodeId.older_node_iff {a : NodeId} {k : Nat} :
    a.Older (.node k) ↔ a = .start ∨ ∃ j, j < k ∧ a = .node j := by
  cases a with
  | start => simp [NodeId.Older]
  | node i => simp [NodeId.Older]
  | named t => simp [NodeId.Older]

theorem NodeId.older_succ {k j : Nat} (h : k < j) : (NodeId.node k).Older (.node j) := h

/-! ## nesting -/

inductive Nested : List Scope → List SwitchScope → Prop
  | bottom (id : NodeId) : Nested [⟨id, none⟩] []
  | plain {id : NodeId} {k : Kind} {scopes : List Scope} {switches : List SwitchScope} :
    k ≠ .switch → Nested scopes switches → Nested (⟨id, some k⟩ :: scopes) switches
  | switch {id header : NodeId} {scopes : List Scope} {switches : List SwitchScope} :
    header = id ∨ header.Older id → Nested scopes switches →
    Nested (⟨id, some .switch⟩ :: scopes) (⟨header, scopes.length + 1⟩ :: switches)

theorem Nested.depth_le {scopes : List Scope} {switches : List SwitchScope}
    (h : Nested scopes switches) : ∀ sw ∈ switches, sw.depth ≤ scopes.length := by
  induction h with
  | bottom id =>
    intro sw hsw
    cases hsw
  | plain _ _ ih =>
    intro sw hsw
    exact Nat.le_succ_of_le (ih sw hsw)
  | switch _ _ ih =>
    intro sw hsw
    rcases List.mem_cons.1 hsw with rfl | hsw
    · exact Nat.le_refl _
    · exact Nat.le_succ_of_le (ih sw hsw)

/-- only the bottom scope has no kind, so a scope with a kind is not the bottom one -/
theorem Nested.tail_ne_nil {s : Scope} {scopes : List Scope} {switches : List SwitchScope}
    (h : Nested (s :: scopes) switches) (hk : s.kind ≠ none) : scopes ≠ [] := by
  rintro rfl
  cases h with
  | bottom id => exact hk rfl
  | plain _ hn => cases hn
  | switch _ hn => cases hn

theorem Nested.replace {s : Scope} {scopes : List Scope} {switches : List SwitchScope}
    (h : Nested (s :: scopes) switches) {id : NodeId} (hid : s.id.Older id) :
    Nested ({ s with id := id } :: scopes) switches := by
  cases h with
  | bottom => exact .bottom id
  | plain hk hn => exact .plain hk hn
  | switch hh hn =>
    refine .switch (.inr ?_) hn
    rcases hh with rfl | hh
    · exact hid
    · exact hh.trans hid

/-- the scope that is left has no switch, or the innermost one -/
theorem Nested.pop {b : Builder} (h : Nested (b.top :: b.outer) b.switches)
    (ho : b.outer ≠ []) : Nested b.outer b.switchesOutside := by
  generalize hss : b.top :: b.outer = scopes at h
  generalize hsw : b.switches = switches at h
  cases h with
  | bottom id =>
    obtain ⟨_, ho'⟩ := List.cons.inj hss
    exact absurd ho' ho
  | plain hk hn =>
    obtain ⟨_, rfl⟩ := List.cons.inj hss
    have hlt : ∀ sw ∈ b.switches, sw.depth < b.depth := fun sw hm =>
      Nat.lt_succ_of_le (hn.depth_le sw (hsw ▸ hm))
    rw [Builder.switchesOutside_of_lt hlt, hsw]
    exact hn
  | @switch id header scopes more hh hn =>
    obtain ⟨_, rfl⟩ := List.cons.inj hss
    have hout : b.switchesOutside = more := by
      simp only [Builder.switchesOutside, hsw, Builder.depth, if_pos]
    rw [hout]
    exact hn

/-! ## positions -/

/-- the depths of the scopes of switches among scopes of the given kinds, the bottom one first -/
def switchDepths (kinds : List (Option Kind)) : List Nat :=
  ((List.range kinds.length).filter fun i => kinds[i]? = some (some .switch)).map (· + 1)

theorem switchDepths_concat (kinds : List (Option Kind)) (k : Option Kind) :
    switchDepths (kinds ++ [k])
      = switchDepths kinds ++ (if k = some .switch then [kinds.length + 1] else []) := by
  have hold : (List.range kinds.length).filter (fun i => (kinds ++ [k])[i]? = some (some .switch))
      = (List.range kinds.length).filter fun i => kinds[i]? = some (some .switch) := by
    apply List.filter_congr
    intro i hi
    rw [List.getElem?_append_left (List.mem_range.1 hi)]
  unfold switchDepths
  rw [List.length_append, List.length_singleton, List.range_succ, List.filter_append, hold,
    List.map_append]
  congr 1
  by_cases hk : k = some .switch
  · simp [hk]
  · simp [hk]

theorem mem_switchDepths {kinds : List (Option Kind)} {d : Nat} :
    d ∈ switchDepths kinds ↔ ∃ i, kinds[i]? = some (some .switch) ∧ i + 1 = d := by
  unfold switchDepths
  simp only [List.mem_map, List.mem_filter, List.mem_range, decide_eq_true_eq]
  constructor
  · rintro ⟨i, ⟨_, hi⟩, rfl⟩
    exact ⟨i, hi, rfl⟩
  · rintro ⟨i, hi, rfl⟩
    exact ⟨i, ⟨(List.getElem?_eq_some_iff.1 hi).1, hi⟩, rfl⟩

theorem Nested.depths_eq {scopes : List Scope} {switches : List SwitchScope}
    (h : Nested scopes switches) :
    switches.reverse.map SwitchScope.depth = switchDepths (scopes.reverse.map Scope.kind) := by
  induction h with
  | bottom id => rfl
  | plain hk hn ih =>
    rw [List.reverse_cons, List.map_append, List.map_singleton, switchDepths_concat, ← ih,
      if_neg (fun h => hk (Option.some.inj h)), List.append_nil]
  | switch hh hn ih =>
    rw [List.reverse_cons, List.map_append, List.reverse_cons, List.map_append, List.map_singleton,
      List.map_singleton, switchDepths_concat, ← ih, if_pos rfl, List.length_map,
      List.length_reverse]

/-- the bottom scope has no kind and every other one has -/
theorem Nested.kinds {scopes : List Scope} {switches : List SwitchScope}
    (h : Nested scopes switches) :
    ∃ id rest, scopes.reverse = ⟨id, none⟩ :: rest ∧ ∀ s ∈ rest, s.kind ≠ none := by
  have step : ∀ (id : NodeId) (k : Kind) (scopes : List Scope),
      (∃ id rest, scopes.reverse = ⟨id, none⟩ :: rest ∧ ∀ s ∈ rest, s.kind ≠ none) →
      ∃ id' rest, (⟨id, some k⟩ :: scopes).reverse = ⟨id', none⟩ :: rest ∧
        ∀ s ∈ rest, s.kind ≠ none := by
    rintro id k scopes ⟨bottom, rest, hr, hk⟩
    refine ⟨bottom, rest ++ [⟨id, some k⟩], by rw [List.reverse_cons, hr]; rfl, ?_⟩
    intro s hs
    rcases List.mem_append.1 hs with hs | hs
    · exact hk s hs
    · rw [List.mem_singleton.1 hs]
      exact Option.some_ne_none k
  induction h with
  | bottom id => exact ⟨id, [], rfl, fun s hs => absurd hs List.not_mem_nil⟩
  | plain _ _ ih => exact step _ _ _ ih
  | switch _ _ ih => exact step _ _ _ ih

/-- the header of a switch is not newer than the node that its scope holds -/
theorem Nested.header {scopes : List Scope} {switches : List SwitchScope}
    (h : Nested scopes switches) : ∀ sw ∈ switches,
      ∃ s, scopes.reverse[sw.depth - 1]? = some s ∧ (sw.header = s.id ∨ sw.header.Older s.id) := by
  induction h with
  | bottom id =>
    intro sw hsw
    cases hsw
  | plain _ hn ih =>
    intro sw hsw
    obtain ⟨s, hs, hh⟩ := ih sw hsw
    refine ⟨s, ?_, hh⟩
    rw [List.reverse_cons, List.getElem?_append_left (List.getElem?_eq_some_iff.1 hs).1, hs]
  | @switch id header scopes more hh hn ih =>
    intro sw hsw
    rcases List.mem_cons.1 hsw with rfl | hsw
    · refine ⟨⟨id, some .switch⟩, ?_, hh⟩
      rw [List.reverse_cons, Nat.add_sub_cancel, List.getElem?_append_right (by simp)]
      simp
    · obtain ⟨s, hs, hh⟩ := ih sw hsw
      refine ⟨s, ?_, hh⟩
      rw [List.reverse_cons, List.getElem?_append_left (List.getElem?_eq_some_iff.1 hs).1, hs]

/-- the innermost switch is the deepest one -/
theorem Nested.head_deepest {scopes : List Scope} {sw : SwitchScope} {more : List SwitchScope}
    (h : Nested scopes (sw :: more)) : ∀ other ∈ more, other.depth < sw.depth := by
  generalize hs : sw :: more = switches at h
  induction h with
  | bottom id => cases hs
  | plain _ _ ih => exact ih hs
  | switch _ hn _ =>
    obtain ⟨rfl, rfl⟩ := List.cons.inj hs
    exact fun other ho => Nat.lt_succ_of_le (hn.depth_le other ho)

end CodeChart
