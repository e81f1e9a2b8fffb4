import CodeChart.Proofs.Builder.Drawn
import CodeChart.Proofs.Builder.Tree
import Mathlib.Data.List.Induction

/-!
# The case labels of a switch

Which switches are open, what is written down about a switch and which edges are drawn from it are
kept in three places.  They tell the same story: a case label belongs to the switch that was the
innermost open one when the label was made.

* `Builder.Lists`       the record of a header holds a node; `Builder.Sound.lists_add` says what a
                        statement adds to the records;
* `Builder.FilesCases`  the records by themselves: one for each switch, with ever newer case labels,
                        each of them in one record at most;
* `Builder.InnermostSwitch`   the open switch that no other open switch lies in, read off the
                        scopes; it is the current one (`Builder.Sound.currentSwitch_eq_some_iff`);
* `Node.IsMadeIn`       the state in which a source text makes a node;
* `Node.IsFiled`        a label is in the record of the switch that was innermost then, and its edge
                        comes from there; `caseRecords_agree` says so of every label.
-/

namespace CodeChart

/-! ## what the records hold -/

def Builder.Lists (b : Builder) (header id : NodeId) : Prop :=
  ∃ ids, (header, ids) ∈ b.cases ∧ id ∈ ids

theorem Builder.casesWith_cases (b : Builder) (k : Kind) (id : NodeId) :
    (k = .switch ∧ b.casesWith k id = Assoc.set b.cases id []) ∨
    (∃ header, k = .caseLabel ∧ b.currentSwitch = some header ∧ b.casesWith k id
      = b.cases.map fun e => if e.1 = header then (e.1, e.2 ++ [id]) else e) ∨
    (¬ (k = .caseLabel ∧ b.currentSwitch.isSome) ∧ b.casesWith k id = b.cases) := by
  unfold Builder.casesWith
  split
  · exact .inl ⟨rfl, rfl⟩
  · rename_i header hs
    exact .inr (.inl ⟨header, rfl, hs, rfl⟩)
  · rename_i hlabel
    refine .inr (.inr ⟨fun hk => ?_, rfl⟩)
    obtain ⟨header, hs⟩ := Option.isSome_iff_exists.1 hk.2
    exact hlabel header hk.1 hs

namespace Builder.Sound

variable {b : Builder}

theorem older_of_mem (h : b.Sound) {n : Node} (hn : n ∈ b.nodes) : n.id.Older b.nextId := by
  obtain ⟨i, hi⟩ := List.getElem?_of_mem hn
  have hlt : i < b.nodes.length := (List.getElem?_eq_some_iff.1 hi).1
  rw [h.getElem_id hi, Builder.nextId, h.counter_eq]
  exact hlt

theorem older_of_key (h : b.Sound) {header : NodeId} (hk : header ∈ b.cases.map Prod.fst) :
    header.Older b.nextId := by
  rw [h.keys_eq] at hk
  obtain ⟨n, hn, rfl⟩ := List.mem_map.1 hk
  exact h.older_of_mem (List.mem_of_mem_filter hn)

/-- the current switch has a record -/
theorem exists_record (h : b.Sound) {header : NodeId} (hs : b.currentSwitch = some header) :
    ∃ ids, (header, ids) ∈ b.cases := by
  obtain ⟨sw, hsw, rfl⟩ := Option.map_eq_some_iff.1 hs
  obtain ⟨n, hn, hid, hkind⟩ := h.headers sw (List.mem_of_head? hsw)
  have hkey : sw.header ∈ b.cases.map Prod.fst := by
    rw [h.keys_eq, ← hid]
    exact List.mem_map_of_mem (List.mem_filter.2 ⟨hn, decide_eq_true hkind⟩)
  obtain ⟨e, he, heq⟩ := List.mem_map.1 hkey
  exact ⟨e.2, heq ▸ he⟩

theorem lists_draw (h : b.Sound) (k : Kind) (t : Text) (line : Int) (header id : NodeId) :
    (b.draw k t line).Lists header id ↔
      b.Lists header id ∨ (k = .caseLabel ∧ b.currentSwitch = some header ∧ id = b.nextId) := by
  rw [Builder.draw_eq]
  show (∃ ids, (header, ids) ∈ b.casesWith k b.nextId ∧ id ∈ ids) ↔ _
  rcases b.casesWith_cases k b.nextId with ⟨hk, hc⟩ | ⟨current, hk, hs, hc⟩ | ⟨hk, hc⟩
  · -- a new switch has an empty record
    have hno : ¬ (k = .caseLabel ∧ b.currentSwitch = some header ∧ id = b.nextId) := by
      intro hlabel
      rw [hk] at hlabel
      exact absurd hlabel.1 (by decide)
    rw [hc, Assoc.set_of_not_mem h.nextId_not_key, or_iff_left hno]
    constructor
    · rintro ⟨ids, hids, hid⟩
      rcases List.mem_append.1 hids with hids | hids
      · exact ⟨ids, hids, hid⟩
      · obtain ⟨_, rfl⟩ := Prod.mk.inj (List.mem_singleton.1 hids)
        exact absurd hid List.not_mem_nil
    · rintro ⟨ids, hids, hid⟩
      exact ⟨ids, List.mem_append_left _ hids, hid⟩
  · rw [hc]
    constructor
    · rintro ⟨ids, hids, hid⟩
      obtain ⟨e, he, heq⟩ := List.mem_map.1 hids
      split at heq
      · rename_i hcur
        obtain ⟨rfl, rfl⟩ := Prod.mk.inj heq
        rcases List.mem_append.1 hid with hid | hid
        · exact .inl ⟨e.2, he, hid⟩
        · exact .inr ⟨hk, hcur ▸ hs, List.mem_singleton.1 hid⟩
      · rw [heq] at he
        exact .inl ⟨ids, he, hid⟩
    · rintro (⟨ids, hids, hid⟩ | ⟨_, hs', rfl⟩)
      · by_cases hcur : header = current
        · exact ⟨ids ++ [b.nextId], List.mem_map.2 ⟨_, hids, if_pos hcur⟩,
            List.mem_append_left _ hid⟩
        · exact ⟨ids, List.mem_map.2 ⟨_, hids, if_neg hcur⟩, hid⟩
      · obtain ⟨ids, hids⟩ := h.exists_record hs'
        have hcur : header = current := Option.some.inj (hs'.symm.trans hs)
        exact ⟨ids ++ [b.nextId], List.mem_map.2 ⟨_, hids, if_pos hcur⟩,
          List.mem_append_right _ (List.mem_singleton_self _)⟩
  · have hno : ¬ (k = .caseLabel ∧ b.currentSwitch = some header ∧ id = b.nextId) := fun hlabel =>
      hk ⟨hlabel.1, Option.isSome_iff_exists.2 ⟨header, hlabel.2.1⟩⟩
    rw [hc, or_iff_left hno]
    exact Iff.rfl

end Builder.Sound

/-! ## the records by themselves -/

structure Builder.FilesCases (b : Builder) : Prop where
  /-- one record for each switch, in the order in which these were made -/
  keys : b.cases.map Prod.fst = (b.nodes.filter fun n => n.kind = some .switch).map Node.id
  /-- the nodes of a record are ever newer, and all newer than the switch -/
  ascending : ∀ e ∈ b.cases, (e.1 :: e.2).Pairwise NodeId.Older
  labels : ∀ header id, b.Lists header id → ∃ n ∈ b.nodes, n.id = id ∧ n.kind = some .caseLabel
  once : ∀ header other id, b.Lists header id → b.Lists other id → header = other

namespace Builder.FilesCases

variable {b : Builder}

theorem fresh : Builder.fresh.FilesCases where
  keys := rfl
  ascending := List.forall_mem_nil _
  labels := fun _ _ ⟨_, hids, _⟩ => absurd hids List.not_mem_nil
  once := fun _ _ _ ⟨_, hids, _⟩ => absurd hids List.not_mem_nil

theorem older_of_lists (h : b.FilesCases) (hs : b.Sound) {header id : NodeId}
    (hl : b.Lists header id) : id.Older b.nextId := by
  obtain ⟨n, hn, rfl, _⟩ := h.labels header id hl
  exact hs.older_of_mem hn

theorem nextId_not_listed (h : b.FilesCases) (hs : b.Sound) (header : NodeId) :
    ¬ b.Lists header b.nextId := fun hl =>
  NodeId.not_older_self _ (h.older_of_lists hs hl)

theorem draw (h : b.FilesCases) (hs : b.Sound) (k : Kind) (t : Text) (line : Int) :
    (b.draw k t line).FilesCases := by
  refine ⟨(hs.draw k t line).keys_eq, ?_, ?_, ?_⟩
  · intro e he
    rw [Builder.draw_eq] at he
    have hmem : e ∈ b.casesWith k b.nextId := he
    rcases b.casesWith_cases k b.nextId with ⟨_, hc⟩ | ⟨current, _, _, hc⟩ | ⟨_, hc⟩
    · rw [hc, Assoc.set_of_not_mem hs.nextId_not_key] at hmem
      rcases List.mem_append.1 hmem with hmem | hmem
      · exact h.ascending e hmem
      · rw [List.mem_singleton.1 hmem]
        exact List.pairwise_singleton _ _
    · rw [hc] at hmem
      obtain ⟨old, hold, heq⟩ := List.mem_map.1 hmem
      have hasc := h.ascending old hold
      split at heq
      · -- the new label is newer than the header and than every label before it
        have hkey : old.1.Older b.nextId := hs.older_of_key (List.mem_map_of_mem hold)
        rw [← heq, ← List.cons_append]
        refine List.pairwise_append.2 ⟨hasc, List.pairwise_singleton _ _, fun x hx y hy => ?_⟩
        rw [List.mem_singleton.1 hy]
        rcases List.mem_cons.1 hx with rfl | hx
        · exact hkey
        · exact h.older_of_lists hs ⟨old.2, hold, hx⟩
      · exact heq ▸ hasc
    · exact h.ascending e (hc ▸ hmem)
  · intro header id hl
    rw [Builder.draw_eq]
    rcases (hs.lists_draw k t line header id).1 hl with hl | ⟨hk, _, hid⟩
    · obtain ⟨n, hn, hfacts⟩ := h.labels header id hl
      exact ⟨n, List.mem_append_left _ hn, hfacts⟩
    · exact ⟨_, List.mem_append_right _ (List.mem_singleton_self _), hid.symm, congrArg some hk⟩
  · intro header other id hl hl'
    rcases (hs.lists_draw k t line header id).1 hl with hl | ⟨_, hcur, hid⟩
    · rcases (hs.lists_draw k t line other id).1 hl' with hl' | ⟨_, _, hid⟩
      · exact h.once header other id hl hl'
      · exact absurd (hid ▸ hl) (h.nextId_not_listed hs header)
    · rcases (hs.lists_draw k t line other id).1 hl' with hl' | ⟨_, hcur', _⟩
      · exact absurd (hid ▸ hl') (h.nextId_not_listed hs other)
      · exact Option.some.inj (hcur.symm.trans hcur')

theorem ignore (h : b.FilesCases) (n : Nat) : Builder.FilesCases { b with ignored := n } :=
  ⟨h.keys, h.ascending, h.labels, h.once⟩

theorem pop (h : b.FilesCases) : b.pop.FilesCases := by
  rcases b.pop_cases with ⟨_, hp⟩ | ⟨s, rest, _, hp⟩
  · rw [hp]
    exact h
  · rw [hp]
    exact ⟨h.keys, h.ascending, h.labels, h.once⟩

theorem add (h : b.FilesCases) (hs : b.Sound) (k : Kind) (t : Text) (line : Int) :
    (b.add k t line).FilesCases := by
  have hleave : (b.leaveFor k).FilesCases := by
    rcases b.leaveFor_cases k with hl | hl
    · rw [hl]
      exact h
    · rw [hl]
      exact h.pop
  have hdraw := hleave.draw (hs.leaveFor k) k t line
  obtain ⟨top, outer, switches, hsettle⟩ := ((b.leaveFor k).draw k t line).settle_fields k
    (k.placement t) (b.leaveFor k).nextId
  rw [Builder.add, hsettle]
  exact ⟨hdraw.keys, hdraw.ascending, hdraw.labels, hdraw.once⟩

end Builder.FilesCases

theorem Builder.filesCases_feedAll (ss : List Statement) :
    (Builder.fresh.feedAll ss).Sound ∧ (Builder.fresh.feedAll ss).FilesCases :=
  Builder.feedAll_induction (P := fun b => b.Sound ∧ b.FilesCases)
    (fun _ n hb => ⟨hb.1.ignore n, hb.2.ignore n⟩)
    (fun _ hb => ⟨hb.1.pop, hb.2.pop⟩)
    (fun _ k t line hb => ⟨hb.1.add k t line, hb.2.add hb.1 k t line⟩)
    ⟨.fresh, .fresh⟩ ss

/-! ## the innermost switch -/

/-- no open scope is that of a switch -/
def Builder.OutsideSwitches (b : Builder) : Prop :=
  ∀ i : Nat, b.scopeKinds[i]? ≠ some (some .switch)

/-- the scope of the switch is open, and further in there is no scope of a switch -/
def Builder.InnermostSwitch (b : Builder) (header : NodeId) : Prop :=
  ∃ i : Nat, b.scopeKinds[i]? = some (some .switch) ∧
    (∀ j, i < j → b.scopeKinds[j]? ≠ some (some .switch)) ∧ ⟨header, i + 1⟩ ∈ b.switches

namespace Builder.Sound

variable {b : Builder}

theorem outsideSwitches_iff (h : b.Sound) : b.OutsideSwitches ↔ b.currentSwitch = none := by
  constructor
  · exact h.currentIsInnermost.1
  · intro hs i hi
    obtain ⟨sw, hsw, _⟩ := h.depth_mem_iff.2 (mem_switchDepths.2 ⟨i, hi, rfl⟩)
    rw [Builder.currentSwitch, Option.map_eq_none_iff, List.head?_eq_none_iff] at hs
    rw [hs] at hsw
    exact List.not_mem_nil hsw

theorem currentSwitch_eq_some_iff (h : b.Sound) {header : NodeId} :
    b.currentSwitch = some header ↔ b.InnermostSwitch header := by
  have hdeep : ∀ sw ∈ b.switches, ∃ i, b.scopeKinds[i]? = some (some .switch) ∧ i + 1 = sw.depth :=
    fun sw hsw => mem_switchDepths.1 (h.depth_mem_iff.1 ⟨sw, hsw, rfl⟩)
  have hhead : ∀ sw more, b.switches = sw :: more → ∀ other ∈ b.switches, other = sw ∨
      other.depth < sw.depth := by
    intro sw more hs other hother
    have hn := h.nested
    rw [hs] at hn hother
    rcases List.mem_cons.1 hother with rfl | hother
    · exact .inl rfl
    · exact .inr (hn.head_deepest other hother)
  cases hs : b.switches with
  | nil =>
    constructor
    · intro hcur
      rw [Builder.currentSwitch, hs] at hcur
      cases hcur
    · rintro ⟨i, _, _, hsw⟩
      rw [hs] at hsw
      cases hsw
  | cons sw more =>
    have hmem : sw ∈ b.switches := by
      rw [hs]
      exact List.mem_cons_self
    obtain ⟨i, hi, hd⟩ := hdeep sw hmem
    have hcur : b.currentSwitch = some sw.header := by
      rw [Builder.currentSwitch, hs]
      rfl
    rw [hcur, Option.some.injEq]
    constructor
    · rintro rfl
      refine ⟨i, hi, fun j hij hj => ?_, hd ▸ hmem⟩
      obtain ⟨other, hother, hdepth⟩ := h.depth_mem_iff.2 (mem_switchDepths.2 ⟨j, hj, rfl⟩)
      rcases hhead sw more hs other hother with rfl | hlt <;> omega
    · rintro ⟨j, _, hlast, hsw⟩
      rcases hhead sw more hs _ hsw with heq | hlt
      · exact congrArg SwitchScope.header heq.symm
      · have hlt' : j + 1 < sw.depth := hlt
        exact absurd hi (hlast i (by omega))

end Builder.Sound

/-! ## what a statement adds -/

theorem Builder.leaveFor_rescoped (b : Builder) (k : Kind) : ∃ top outer switches,
    b.leaveFor k = { b with top := top, outer := outer, switches := switches } := by
  rcases b.leaveFor_cases k with hl | hl
  · exact ⟨b.top, b.outer, b.switches, hl⟩
  · rcases b.pop_cases with ⟨_, hp⟩ | ⟨s, rest, _, hp⟩
    · exact ⟨b.top, b.outer, b.switches, hl.trans hp⟩
    · exact ⟨s, rest, b.switchesOutside, hl.trans hp⟩

/-- one node, one edge, and what belongs to them -/
theorem Builder.add_eq (b : Builder) (k : Kind) (t : Text) (line : Int) :
    ∃ top outer switches, b.add k t line = { b with
      nodes := b.nodes ++ [⟨b.nextId, k.label t, k.category t, some k, line⟩]
      edges := b.edges ++ [⟨(b.leaveFor k).sourceFor k, b.nextId, k.edgeStyle, k.edgeTag t⟩]
      top := top
      outer := outer
      switches := switches
      counter := b.counter + 1
      lines := Assoc.set b.lines b.nextId line
      cases := (b.leaveFor k).casesWith k b.nextId } := by
  obtain ⟨top, outer, switches, hsettle⟩ := ((b.leaveFor k).draw k t line).settle_fields k
    (k.placement t) (b.leaveFor k).nextId
  obtain ⟨_, _, _, hleave⟩ := b.leaveFor_rescoped k
  refine ⟨top, outer, switches, ?_⟩
  rw [Builder.add, hsettle, Builder.draw_eq, hleave]
  rfl

theorem Builder.Sound.lists_add {b : Builder} (h : b.Sound) (k : Kind) (t : Text) (line : Int)
    (header id : NodeId) : (b.add k t line).Lists header id ↔
      b.Lists header id ∨ (k = .caseLabel ∧ b.currentSwitch = some header ∧ id = b.nextId) := by
  have hdraw := (h.leaveFor k).lists_draw k t line header id
  obtain ⟨_, _, _, hadd⟩ := b.add_eq k t line
  obtain ⟨top, outer, switches, hleave⟩ := b.leaveFor_rescoped k
  have hlists : (b.add k t line).Lists header id ↔
      ((b.leaveFor k).draw k t line).Lists header id := by
    rw [hadd, Builder.draw_eq, hleave]
    exact Iff.rfl
  rw [hlists, hdraw]
  refine or_congr (by rw [hleave]; exact Iff.rfl) (and_congr_right fun hk => ?_)
  rw [Builder.leaveFor_of_stays (by rw [hk]; rfl)]

/-- once a node is made, its records stay what they are -/
theorem Builder.Sound.lists_feedAll {b : Builder} (h : b.Sound) {id : NodeId}
    (hid : id.Older b.nextId) (ss : List Statement) (header : NodeId) :
    (b.feedAll ss).Lists header id ↔ b.Lists header id := by
  have hkeep := Builder.feedAll_induction
    (P := fun c => c.Sound ∧ id.Older c.nextId ∧ (c.Lists header id ↔ b.Lists header id))
    (fun _ n hc => ⟨hc.1.ignore n, hc.2.1, hc.2.2⟩) (fun c hc => ?_) (fun c k t line hc => ?_)
    ⟨h, hid, Iff.rfl⟩ ss
  · exact hkeep.2.2
  · refine ⟨hc.1.pop, ?_⟩
    rcases c.pop_cases with ⟨_, hp⟩ | ⟨_, _, _, hp⟩
    · rw [hp]
      exact hc.2
    · rw [hp]
      exact hc.2
  · obtain ⟨hs, hold, hlists⟩ := hc
    refine ⟨hs.add k t line, ?_, ?_⟩
    · obtain ⟨_, _, _, hadd⟩ := c.add_eq k t line
      rw [hadd]
      exact hold.trans (NodeId.older_succ (Nat.lt_succ_self c.counter))
    · rw [hs.lists_add k t line, hlists]
      refine or_iff_left fun hnew => ?_
      rw [hnew.2.2] at hold
      exact NodeId.not_older_self _ hold

/-- nothing that was drawn is changed -/
theorem Builder.prefix_feedAll (b : Builder) (ss : List Statement) :
    b.nodes <+: (b.feedAll ss).nodes ∧ b.edges <+: (b.feedAll ss).edges := by
  refine Builder.feedAll_induction (P := fun c => b.nodes <+: c.nodes ∧ b.edges <+: c.edges)
    (fun _ _ hc => hc) (fun c hc => ?_) (fun c k t line hc => ?_)
    ⟨List.prefix_refl _, List.prefix_refl _⟩ ss
  · rw [c.nodes_pop, c.edges_pop]
    exact hc
  · obtain ⟨_, _, _, hadd⟩ := c.add_eq k t line
    rw [hadd]
    exact ⟨hc.1.trans (List.prefix_append _ _), hc.2.trans (List.prefix_append _ _)⟩

theorem Builder.feed_cases (b : Builder) (s : Statement) :
    (∃ c, b.braces s.text = (c, none) ∧ b.feed s = c) ∨
    ∃ c t, b.braces s.text = (c, some t) ∧ b.feed s = c.add (Kind.ofText t) t s.line := by
  unfold Builder.feed
  split
  · rename_i c hc
    exact .inl ⟨c, hc, rfl⟩
  · rename_i c t hc
    exact .inr ⟨c, t, hc, rfl⟩

/-! ## the state in which a node is made -/

/-- the statement that the node is drawn from has been read up to its braces -/
def Node.IsMadeIn (n : Node) (ss : List Statement) (b : Builder) : Prop :=
  ∃ before s after t, ss = before ++ s :: after ∧
    (Builder.fresh.feedAll before).braces s.text = (b, some t) ∧ n.id = b.nextId

theorem Node.exists_isMadeIn {n : Node} {ss : List Statement}
    (hn : n ∈ (Builder.fresh.feedAll ss).nodes) : ∃ b, n.IsMadeIn ss b := by
  induction ss using List.reverseRecOn with
  | nil => exact absurd hn List.not_mem_nil
  | append_singleton ss s ih =>
    have hlater : n ∈ (Builder.fresh.feedAll ss).nodes → ∃ b, n.IsMadeIn (ss ++ [s]) b := by
      intro hmem
      obtain ⟨b, before, s', after, t, rfl, hfacts⟩ := ih hmem
      exact ⟨b, before, s', after ++ [s], t, by rw [List.append_assoc]; rfl, hfacts⟩
    have hnodes := (Builder.fresh.feedAll ss).braces_nodes s.text
    rw [Builder.feedAll_append] at hn
    rcases (Builder.fresh.feedAll ss).feed_cases s with ⟨c, hc, hfeed⟩ | ⟨c, t, hc, hfeed⟩
    · have hmem : n ∈ c.nodes := hfeed ▸ hn
      rw [hc] at hnodes
      exact hlater (hnodes ▸ hmem)
    · obtain ⟨_, _, _, hadd⟩ := c.add_eq (Kind.ofText t) t s.line
      have hmem : n ∈ ((Builder.fresh.feedAll ss).feed s).nodes := hn
      rw [hfeed, hadd] at hmem
      rw [hc] at hnodes
      rcases List.mem_append.1 hmem with hmem | hmem
      · exact hlater (hnodes ▸ hmem)
      · refine ⟨c, ss, s, [], t, rfl, hc, ?_⟩
        rw [List.mem_singleton.1 hmem]

section
variable {n : Node} {ss : List Statement} {b : Builder}

/-- the state is consistent, and a statement that is added to it makes the node -/
theorem Node.IsMadeIn.exists_add (h : n.IsMadeIn ss b) : b.Sound ∧ b.FilesCases ∧
    ∃ t line after, n.id = b.nextId ∧
      Builder.fresh.feedAll ss = (b.add (Kind.ofText t) t line).feedAll after := by
  obtain ⟨before, s, after, t, rfl, hbraces, hid⟩ := h
  have hb : b = ((Builder.fresh.feedAll before).braces s.text).1 := by rw [hbraces]
  have hfacts := Builder.braces_induction (P := fun c => c.Sound ∧ c.FilesCases)
    (fun _ m hc => ⟨hc.1.ignore m, hc.2.ignore m⟩) (fun _ hc => ⟨hc.1.pop, hc.2.pop⟩)
    (Builder.filesCases_feedAll before) s.text
  rw [← hb] at hfacts
  refine ⟨hfacts.1, hfacts.2, t, s.line, after, hid, ?_⟩
  rw [Builder.feedAll_append, Builder.feedAll_cons, Builder.feed, hbraces]

/-- the node and its edge are what was put next to the state -/
theorem Node.IsMadeIn.drawn (h : n.IsMadeIn ss b) (hn : n ∈ (Builder.fresh.feedAll ss).nodes)
    (hk : n.kind = some .caseLabel) :
    (∀ header, (Builder.fresh.feedAll ss).Lists header n.id ↔ b.currentSwitch = some header) ∧
      ∀ e ∈ (Builder.fresh.feedAll ss).edges, e.target = n.id →
        e.source = b.sourceFor .caseLabel ∧ e.tag = some n.label := by
  obtain ⟨hs, hf, t, line, after, hid, hrun⟩ := h.exists_add
  obtain ⟨hfinal, hhung⟩ := Builder.hung_feedAll ss
  obtain ⟨_, _, _, hadd⟩ := b.add_eq (Kind.ofText t) t line
  obtain ⟨hnodes, hedges⟩ := (b.add (Kind.ofText t) t line).prefix_feedAll after
  rw [← hrun, hadd] at hnodes hedges
  have hnode := getElem?_of_concat_prefix hnodes
  have hedge := getElem?_of_concat_prefix hedges
  have hplace : b.nextId = .node b.nodes.length := congrArg NodeId.node hs.counter_eq
  -- identifiers are places, so nothing else has this one
  have hn' : n = ⟨b.nextId, (Kind.ofText t).label t, (Kind.ofText t).category t,
      some (Kind.ofText t), line⟩ := by
    obtain ⟨i, hi⟩ := List.getElem?_of_mem hn
    have hsame : NodeId.node i = .node b.nodes.length :=
      (hfinal.getElem_id hi).symm.trans (hid.trans hplace)
    rw [NodeId.node.inj hsame, hnode] at hi
    exact (Option.some.inj hi).symm
  have hlabel : Kind.ofText t = .caseLabel := by
    rw [hn'] at hk
    exact Option.some.inj hk
  rw [hlabel] at hn' hedge hrun
  constructor
  · intro header
    have hnew := hs.lists_add .caseLabel t line header b.nextId
    have hold : b.nextId.Older (b.add .caseLabel t line).nextId := by
      rw [← hlabel, hadd]
      exact NodeId.older_succ (Nat.lt_succ_self b.counter)
    rw [hid, hrun, (hs.add .caseLabel t line).lists_feedAll hold, hnew,
      or_iff_right (hf.nextId_not_listed hs header), and_iff_right rfl, and_iff_left rfl]
  · intro e he htarget
    obtain ⟨j, hj⟩ := List.getElem?_of_mem he
    have hsame : NodeId.node j = .node b.nodes.length :=
      ((hhung.isRootedTree hfinal).targets j e hj).symm.trans (htarget.trans (hid.trans hplace))
    rw [NodeId.node.inj hsame, ← hs.edges_eq, hedge] at hj
    rw [← Option.some.inj hj, hn', Builder.leaveFor_of_stays rfl]
    exact ⟨rfl, rfl⟩

end

/-- with the edge of the label, the state at the end, and that in which the label was made -/
structure Node.IsFiled (n : Node) (e : Edge) (final b : Builder) : Prop where
  listed : ∀ header, final.Lists header n.id ↔ b.InnermostSwitch header
  hangs : ∀ header, final.Lists header n.id → e.source = header ∧ e.tag = some n.label
  apart : (∀ header, ¬ final.Lists header n.id) →
    b.OutsideSwitches ∧ b.scopeIds.getLast? = some e.source

theorem Node.IsMadeIn.filed {n : Node} {ss : List Statement} {b : Builder} (h : n.IsMadeIn ss b)
    (hn : n ∈ (Builder.fresh.feedAll ss).nodes) (hk : n.kind = some .caseLabel) {e : Edge}
    (he : e ∈ (Builder.fresh.feedAll ss).edges) (htarget : e.target = n.id) :
    n.IsFiled e (Builder.fresh.feedAll ss) b := by
  obtain ⟨hs, _⟩ := h.exists_add
  obtain ⟨hlists, hedge⟩ := h.drawn hn hk
  obtain ⟨hsource, htag⟩ := hedge e he htarget
  refine ⟨fun header => (hlists header).trans hs.currentSwitch_eq_some_iff, ?_, ?_⟩
  · intro header hlisted
    refine ⟨?_, htag⟩
    rw [hsource]
    show b.currentSwitch.getD b.top.id = header
    rw [(hlists header).1 hlisted]
    rfl
  · intro hno
    have hnone : b.currentSwitch = none := by
      cases hcur : b.currentSwitch with
      | none => rfl
      | some header => exact absurd ((hlists header).2 hcur) (hno header)
    refine ⟨hs.outsideSwitches_iff.2 hnone, ?_⟩
    rw [hsource]
    show b.scopeIds.getLast? = some (b.currentSwitch.getD b.top.id)
    rw [hnone, Builder.scopeIds, Builder.scopes, List.map_reverse, List.getLast?_reverse]
    rfl

/-- **the records of the cases agree with the chart**: each switch has one, and a case label is in
that of the switch that was innermost when the label was made -/
theorem caseRecords_agree (src : Text) : (Builder.ofSource src).FilesCases ∧
    ∀ n ∈ (Builder.ofSource src).nodes, n.kind = some .caseLabel →
      (∃ b, n.IsMadeIn (statements src) b) ∧
      (∃ e ∈ (Builder.ofSource src).edges, e.target = n.id) ∧
      ∀ b, n.IsMadeIn (statements src) b → ∀ e ∈ (Builder.ofSource src).edges,
        e.target = n.id → n.IsFiled e (Builder.ofSource src) b := by
  obtain ⟨notices, hfinish⟩ := (Builder.fresh.feedAll (statements src)).finish_eq
  rw [Builder.ofSource, Builder.run, hfinish]
  obtain ⟨_, hfiled⟩ := Builder.filesCases_feedAll (statements src)
  obtain ⟨_, hhung⟩ := Builder.hung_feedAll (statements src)
  refine ⟨⟨hfiled.keys, hfiled.ascending, hfiled.labels, hfiled.once⟩, fun n hn hk => ?_⟩
  refine ⟨Node.exists_isMadeIn hn, ?_, fun b hmade e he htarget => ?_⟩
  · obtain ⟨e, he, hfit⟩ := exists_of_mem_left hhung.fits hn
    exact ⟨e, he, hfit.target⟩
  · have h := hmade.filed hn hk he htarget
    exact ⟨h.listed, h.hangs, h.apart⟩

end CodeChart
