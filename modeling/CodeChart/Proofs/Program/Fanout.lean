import CodeChart.Proofs.Builder.Tree
import CodeChart.Proofs.Program.Syntax

/-!
# Alternatives fan out

The two headers of a fork should hang on the same node.  They do as long as no fork stands
directly in a block of the kind that it opens with: behind the first block of such a fork the
builder takes the scope around it for one whose braces were left out, and leaves it.

* `Builder.Grown`      what holds after some more statements, wherever they stand;
* `Builder.Entered`    what holds behind a header, and from it, behind its block
                       (`Builder.Entered.grown`, `edge`, `restored`);
* `Program.Ran`, `Program.Enclosed`   what a program does between two states, alone and as the
                       block of a header, whether its forks stand apart or not;
* `Program.Ran.call`, `Program.Ran.block`, `Program.Ran.fork`   one step for each form of programs;
* `Program.ran`        every program does it, by induction;
* `Program.fansOut_iff`  all forks of a program fan out if and only if they stand apart.
-/

namespace CodeChart

/-! ## growing -/

/-- more nodes of the given kinds and their edges, and no deeper scopes -/
structure Builder.Grown (b b' : Builder) (kinds : List Kind) : Prop where
  sound : b'.Sound
  ignored : b'.ignored = 0
  kinds : b'.nodes.map Node.kind = b.nodes.map Node.kind ++ kinds.map some
  edges : b.edges <+: b'.edges
  depth : b'.depth ≤ b.depth

theorem Builder.Grown.refl {b : Builder} (h : b.Sound) (hi : b.ignored = 0) : b.Grown b [] :=
  ⟨h, hi, by simp, List.prefix_refl _, Nat.le_refl _⟩

theorem Builder.Grown.trans {a b c : Builder} {ks ls : List Kind} (hab : a.Grown b ks)
    (hbc : b.Grown c ls) : a.Grown c (ks ++ ls) where
  sound := hbc.sound
  ignored := hbc.ignored
  kinds := by rw [hbc.kinds, hab.kinds, List.map_append, List.append_assoc]
  edges := hab.edges.trans hbc.edges
  depth := Nat.le_trans hbc.depth hab.depth

theorem Builder.Grown.length_eq {b b' : Builder} {ks : List Kind} (h : b.Grown b' ks) :
    b'.nodes.length = b.nodes.length + ks.length := by
  have hlen := congrArg List.length h.kinds
  simpa using hlen

/-! ## the edges of two nodes -/

theorem getElem?_of_prefix {α : Type} {xs ys : List α} {x : α} {i : Nat} (h : xs[i]? = some x)
    (hp : xs <+: ys) : ys[i]? = some x := by
  obtain ⟨tail, rfl⟩ := hp
  rw [List.getElem?_append_left (List.getElem?_eq_some_iff.1 h).1, h]

/-- how the sources of two edges are related, the edges given by their places -/
def SourcesAt (r : NodeId → NodeId → Prop) (edges : List Edge) (i j : Nat) : Prop :=
  ∃ e f, edges[i]? = some e ∧ edges[j]? = some f ∧ r e.source f.source

theorem SourcesAt.mono {r : NodeId → NodeId → Prop} {edges more : List Edge} {i j : Nat}
    (h : SourcesAt r edges i j) (hp : edges <+: more) : SourcesAt r more i j := by
  obtain ⟨e, f, he, hf, hr⟩ := h
  exact ⟨e, f, getElem?_of_prefix he hp, getElem?_of_prefix hf hp, hr⟩

/-! ## one statement -/

theorem Builder.depth_pop_le (b : Builder) : b.pop.depth ≤ b.depth := by
  rw [Builder.depth, Builder.outer_pop, List.length_tail, Builder.depth]
  omega

/-- leaving a scope in front of a statement changes the scopes alone -/
theorem Builder.leaveFor_fields (b : Builder) (k : Kind) :
    (b.leaveFor k).nodes = b.nodes ∧ (b.leaveFor k).edges = b.edges ∧
      (b.leaveFor k).ignored = b.ignored ∧ (b.leaveFor k).depth ≤ b.depth := by
  rcases b.leaveFor_cases k with h | h
  · rw [h]
    exact ⟨rfl, rfl, rfl, Nat.le_refl _⟩
  · rw [h]
    refine ⟨b.nodes_pop, b.edges_pop, ?_, b.depth_pop_le⟩
    rcases b.pop_cases with ⟨_, hp⟩ | ⟨_, _, _, hp⟩
    · rw [hp]
    · rw [hp]

theorem Builder.feed_line {b : Builder} {s : Statement} {k : Kind} {p : Placement}
    (hi : b.ignored = 0) (h : IsLine s.text k p) :
    b.feed s = ((b.leaveFor k).draw k s.text s.line).settle k p (b.leaveFor k).nextId := by
  rw [Builder.feed_of_ordinary hi h.ordinary, h.kind, Builder.add, h.placement]

/-- a call takes the place of the innermost node -/
theorem Builder.Sound.feed_call {b : Builder} (h : b.Sound) (hi : b.ignored = 0) {s : Statement}
    (hs : IsLine s.text .plain .chain) : b.Grown (b.feed s) [.plain] ∧
      (b.feed s).outer = b.outer ∧ (b.feed s).top.kind = b.top.kind := by
  have hfeed := Builder.feed_line hi hs
  rw [Builder.leaveFor_of_stays rfl, Builder.settle_chain, Builder.draw_eq] at hfeed
  have hsound := h.feed s
  rw [hfeed] at hsound ⊢
  refine ⟨⟨hsound, hi, ?_, ⟨_, rfl⟩, Nat.le_refl _⟩, rfl, rfl⟩
  show (b.nodes ++ _).map Node.kind = _
  rw [List.map_append]
  rfl

/-- a header opens a scope in the state after the scope that it follows on is left -/
structure Builder.Entered (b : Builder) (k : Kind) (b' : Builder) : Prop where
  sound : b'.Sound
  ignored : b'.ignored = 0
  kinds : b'.nodes.map Node.kind = b.nodes.map Node.kind ++ [some k]
  edges : ∃ e, b'.edges = b.edges ++ [e] ∧ e.source = (b.leaveFor k).top.id
  top : b'.top.kind = some k
  outer : b'.outer = (b.leaveFor k).top :: (b.leaveFor k).outer

theorem Builder.Sound.feed_header {b : Builder} (h : b.Sound) (hi : b.ignored = 0) {s : Statement}
    {k : Kind} (hs : IsLine s.text k .nest) (hk : k ≠ .caseLabel) : b.Entered k (b.feed s) := by
  obtain ⟨hnodes, hedges, hignored, _⟩ := b.leaveFor_fields k
  have hsource : (b.leaveFor k).sourceFor k = (b.leaveFor k).top.id := by
    cases k with
    | caseLabel => exact absurd rfl hk
    | _ => rfl
  have hfeed := Builder.feed_line hi hs
  rw [Builder.settle_nest, Builder.draw_eq, hnodes, hedges] at hfeed
  have hsound := h.feed s
  rw [hfeed] at hsound ⊢
  refine ⟨hsound, hignored.trans hi, ?_, ⟨_, rfl, hsource⟩, rfl, rfl⟩
  show (b.nodes ++ _).map Node.kind = _
  rw [List.map_append]
  rfl

/-! ## a block -/

/-- feeding a header, the lines of its block and the closing brace leaves the scope that is
innermost behind the block -/
theorem Builder.feedAll_braced {b : Builder} {t : Text} {body : List Text} {m : Nat}
    (hi : ((b.feed ⟨t, m⟩).feedAll (numbered (m + 1) body)).ignored = 0) :
    b.feedAll (numbered m (braced t body))
      = ((b.feed ⟨t, m⟩).feedAll (numbered (m + 1) body)).pop := by
  rw [braced, numbered_cons, Builder.feedAll_cons, numbered_append, Builder.feedAll_append,
    numbered_cons, numbered_nil, Builder.feedAll_cons, Builder.feedAll_nil,
    Builder.feed_closer hi (.inl rfl)]

theorem Builder.feedAll_numbered_append (b : Builder) (m : Nat) (xs ys : List Text) :
    b.feedAll (numbered m (xs ++ ys))
      = (b.feedAll (numbered m xs)).feedAll (numbered (m + xs.length) ys) := by
  rw [numbered_append, Builder.feedAll_append]

section
variable {b c d : Builder} {k : Kind} {ks : List Kind} (he : b.Entered k c) (hd : c.Grown d ks)
include he

theorem Builder.Entered.length_eq : c.nodes.length = b.nodes.length + 1 := by
  have hlen := congrArg List.length he.kinds
  simpa using hlen

/-- if the block leaves the scopes as they were, so do its header and the closing brace -/
theorem Builder.Entered.restored (houter : d.outer = c.outer) :
    d.pop.outer = (b.leaveFor k).outer ∧ d.pop.top = (b.leaveFor k).top := by
  rw [Builder.pop_of_outer (houter.trans he.outer)]
  exact ⟨rfl, rfl⟩

include hd

/-- a block adds a node for its header and those of its body -/
theorem Builder.Entered.grown : b.Grown d.pop (k :: ks) := by
  have hleave := (b.leaveFor_fields k).2.2.2
  have hdepth := hd.depth
  refine ⟨hd.sound.pop, ?_, ?_, ?_, ?_⟩
  · rcases d.pop_cases with ⟨_, hp⟩ | ⟨_, _, _, hp⟩
    · rw [hp]
      exact hd.ignored
    · rw [hp]
      exact hd.ignored
  · rw [Builder.nodes_pop, hd.kinds, he.kinds, List.append_assoc]
    rfl
  · obtain ⟨e, hedges, _⟩ := he.edges
    rw [Builder.edges_pop]
    exact (List.prefix_append b.edges [e]).trans (hedges ▸ hd.edges)
  · simp only [Builder.depth, he.outer, List.length_cons] at hdepth hleave ⊢
    rw [Builder.outer_pop, List.length_tail]
    omega

theorem Builder.Entered.edge (hs : b.Sound) :
    ∃ e, d.pop.edges[b.nodes.length]? = some e ∧ e.source = (b.leaveFor k).top.id := by
  obtain ⟨e, hedges, hsource⟩ := he.edges
  obtain ⟨tail, htail⟩ := hd.edges
  refine ⟨e, ?_, hsource⟩
  rw [Builder.edges_pop, ← htail, hedges, ← hs.edges_eq]
  simp

end

/-! ## a program -/

/-- what a program does between two states: it adds its nodes; if its forks stand apart it leaves
the scopes as they were, but for the node that the innermost one holds, and the edges of every fork
come from one node; if they do not, those of some fork come from two -/
structure Program.Ran (p : Program) (b b' : Builder) : Prop where
  grown : b.Grown b' p.kinds
  restored : p.IsApart b.top.kind → b'.outer = b.outer ∧ b'.top.kind = b.top.kind
  together : p.IsApart b.top.kind →
    ∀ ij ∈ p.forks b.nodes.length, SourcesAt (· = ·) b'.edges ij.1 ij.2
  torn : ¬ p.IsApart b.top.kind →
    ∃ ij ∈ p.forks b.nodes.length, SourcesAt (· ≠ ·) b'.edges ij.1 ij.2

/-- the same for a header of kind `k`, the program as its block, and the closing brace -/
structure Program.Enclosed (p : Program) (k : Kind) (b b' : Builder) : Prop where
  grown : b.Grown b' (k :: p.kinds)
  edge : ∃ e, b'.edges[b.nodes.length]? = some e ∧ e.source = (b.leaveFor k).top.id
  restored : p.IsApart (some k) →
    b'.outer = (b.leaveFor k).outer ∧ b'.top = (b.leaveFor k).top
  together : p.IsApart (some k) →
    ∀ ij ∈ p.forks (b.nodes.length + 1), SourcesAt (· = ·) b'.edges ij.1 ij.2
  torn : ¬ p.IsApart (some k) →
    ∃ ij ∈ p.forks (b.nodes.length + 1), SourcesAt (· ≠ ·) b'.edges ij.1 ij.2

theorem Program.Ran.enclosed {p : Program} {b c d : Builder} {k : Kind} (hs : b.Sound)
    (he : b.Entered k c) (hp : p.Ran c d) : p.Enclosed k b d.pop := by
  have htogether := hp.together
  have htorn := hp.torn
  rw [he.top, he.length_eq] at htogether htorn
  refine ⟨he.grown hp.grown, he.edge hp.grown hs, ?_, ?_, ?_⟩
  · intro ha
    exact he.restored (hp.restored (he.top ▸ ha)).1
  · rw [Builder.edges_pop]
    exact htogether
  · rw [Builder.edges_pop]
    exact htorn

theorem Program.Ran.done {b : Builder} (h : b.Sound) (hi : b.ignored = 0) : Program.done.Ran b b :=
  ⟨.refl h hi, fun _ => ⟨rfl, rfl⟩, fun _ _ hij => absurd hij List.not_mem_nil,
    fun ha => absurd trivial ha⟩

theorem Program.Ran.call {f : Callee} {x : Group} {rest : Program} {b c b' : Builder}
    (hc : b.Grown c [.plain]) (houter : c.outer = b.outer) (hkind : c.top.kind = b.top.kind)
    (hr : rest.Ran c b') : (Program.call f x rest).Ran b b' := by
  have hrestored := hr.restored
  have htogether := hr.together
  have htorn := hr.torn
  rw [hkind, houter] at hrestored
  rw [hkind, hc.length_eq] at htogether htorn
  exact ⟨hc.trans hr.grown, hrestored, htogether, htorn⟩

theorem Program.Ran.block {h : Header} {body rest : Program} {b c b' : Builder}
    (hb : body.Enclosed h.kind b c) (hr : rest.Ran c b') :
    (Program.block h body rest).Ran b b' := by
  have hbody := hb.restored
  have htogether := hr.together
  have htorn := hr.torn
  rw [Builder.leaveFor_of_stays h.leaves_eq] at hbody
  rw [hb.grown.length_eq] at htogether htorn
  refine ⟨hb.grown.trans hr.grown, ?_, ?_, ?_⟩
  · rintro ⟨hab, har⟩
    obtain ⟨houter, htop⟩ := hbody hab
    have hrest := hr.restored (htop ▸ har)
    rw [houter, htop] at hrest
    exact hrest
  · rintro ⟨hab, har⟩ ij hij
    rcases List.mem_append.1 hij with hij | hij
    · exact (hb.together hab ij hij).mono hr.grown.edges
    · exact htogether ((hbody hab).2 ▸ har) ij hij
  · intro ha
    by_cases hab : body.IsApart (some h.kind)
    · have har : ¬ rest.IsApart c.top.kind := fun har => ha ⟨hab, (hbody hab).2 ▸ har⟩
      obtain ⟨ij, hij, hne⟩ := htorn har
      exact ⟨ij, List.mem_append_right _ hij, hne⟩
    · obtain ⟨ij, hij, hne⟩ := hb.torn hab
      exact ⟨ij, List.mem_append_left _ hij, hne.mono hr.grown.edges⟩

/-- the second header of a fork leaves nothing unless the scope around is one that the first one
could have opened -/
theorem Fork.leaveFor_second {k : Fork} {b : Builder} (h : b.top.kind ≠ some k.first) :
    b.leaveFor k.second = b := by
  unfold Builder.leaveFor
  rw [k.leaves_second, if_neg (fun hk => h hk.2)]

/-- otherwise it leaves that scope, which is not the bottom one, for an older node -/
theorem Fork.leaveFor_second_ne {k : Fork} {b : Builder} (hs : b.Sound)
    (h : b.top.kind = some k.first) : (b.leaveFor k.second).top.id ≠ b.top.id := by
  have hleave : b.leaveFor k.second = b.pop := by
    unfold Builder.leaveFor
    rw [k.leaves_second, if_pos ⟨rfl, h⟩]
  rw [hleave]
  rcases b.pop_cases with ⟨hbottom, _⟩ | ⟨s, rest, houter, hpop⟩
  · exact absurd hbottom (hs.nested.tail_ne_nil (by rw [h]; exact Option.some_ne_none _))
  · rw [hpop]
    intro heq
    have hold : s.id.Older b.top.id :=
      (List.pairwise_cons.1 hs.ascending).1 s (by rw [houter]; exact List.mem_cons_self)
    rw [show s.id = b.top.id from heq] at hold
    exact NodeId.not_older_self _ hold

section
variable {k : Fork} {body other rest : Program} {b c d b' : Builder}
  (hb : body.Enclosed k.first b c) (ho : other.Enclosed k.second c d) (hr : rest.Ran d b')
include hb ho hr

theorem Program.Ran.fork_edges (r : NodeId → NodeId → Prop)
    (h : r b.top.id (c.leaveFor k.second).top.id) :
    SourcesAt r b'.edges b.nodes.length (b.nodes.length + (body.kinds.length + 1)) := by
  obtain ⟨e, he, hsource⟩ := hb.edge
  obtain ⟨f, hf, hsource'⟩ := ho.edge
  rw [Builder.leaveFor_of_stays k.leaves_first] at hsource
  rw [hb.grown.length_eq] at hf
  have hpair : SourcesAt r d.edges b.nodes.length (b.nodes.length + (body.kinds.length + 1)) :=
    ⟨e, f, getElem?_of_prefix he ho.grown.edges, hf, by rw [hsource, hsource']; exact h⟩
  exact hpair.mono hr.grown.edges

theorem Program.Ran.fork : (Program.fork k body other rest).Ran b b' := by
  have hbody := hb.restored
  have hother := ho.together
  have hothertorn := ho.torn
  have hrest := hr.together
  have hresttorn := hr.torn
  rw [Builder.leaveFor_of_stays k.leaves_first] at hbody
  rw [hb.grown.length_eq] at hother hothertorn
  rw [ho.grown.length_eq, hb.grown.length_eq] at hrest hresttorn
  have hstay : b.top.kind ≠ some k.first → body.IsApart (some k.first) →
      c.leaveFor k.second = c := by
    intro hne hab
    exact Fork.leaveFor_second ((hbody hab).2 ▸ hne)
  have hback : b.top.kind ≠ some k.first → body.IsApart (some k.first) →
      other.IsApart (some k.second) → d.outer = b.outer ∧ d.top = b.top := by
    intro hne hab hao
    obtain ⟨houter, htop⟩ := ho.restored hao
    rw [hstay hne hab] at houter htop
    exact ⟨houter.trans (hbody hab).1, htop.trans (hbody hab).2⟩
  refine ⟨hb.grown.trans (ho.grown.trans hr.grown), ?_, ?_, ?_⟩
  · rintro ⟨hne, hab, hao, har⟩
    obtain ⟨houter, htop⟩ := hback hne hab hao
    have hkept := hr.restored (htop ▸ har)
    rw [houter, htop] at hkept
    exact hkept
  · rintro ⟨hne, hab, hao, har⟩ ij hij
    rcases List.mem_cons.1 hij with rfl | hij
    · refine Program.Ran.fork_edges hb ho hr (· = ·) ?_
      rw [hstay hne hab, (hbody hab).2]
    · rcases List.mem_append.1 hij with hij | hij
      · exact (hb.together hab ij hij).mono (ho.grown.edges.trans hr.grown.edges)
      · rcases List.mem_append.1 hij with hij | hij
        · exact (hother hao ij hij).mono hr.grown.edges
        · exact hrest ((hback hne hab hao).2 ▸ har) ij hij
  · intro ha
    -- the first of the conditions that fails: an earlier one keeps the scopes as they should be
    by_cases hab : body.IsApart (some k.first)
    · by_cases hhere : b.top.kind = some k.first
      · refine ⟨_, List.mem_cons_self, Program.Ran.fork_edges hb ho hr (· ≠ ·) ?_⟩
        have htop := (hbody hab).2
        rw [← htop]
        exact (Fork.leaveFor_second_ne hb.grown.sound (htop ▸ hhere)).symm
      · by_cases hao : other.IsApart (some k.second)
        · have har : ¬ rest.IsApart d.top.kind := fun har =>
            ha ⟨hhere, hab, hao, (hback hhere hab hao).2 ▸ har⟩
          obtain ⟨ij, hij, hne⟩ := hresttorn har
          exact ⟨ij, List.mem_cons_of_mem _ (List.mem_append_right _ (List.mem_append_right _ hij)),
            hne⟩
        · obtain ⟨ij, hij, hne⟩ := hothertorn hao
          exact ⟨ij, List.mem_cons_of_mem _ (List.mem_append_right _ (List.mem_append_left _ hij)),
            hne.mono hr.grown.edges⟩
    · obtain ⟨ij, hij, hne⟩ := hb.torn hab
      exact ⟨ij, List.mem_cons_of_mem _ (List.mem_append_left _ hij),
        hne.mono (ho.grown.edges.trans hr.grown.edges)⟩

end

theorem Program.ran (p : Program) {b : Builder} (h : b.Sound) (hi : b.ignored = 0) (m : Nat) :
    p.Ran b (b.feedAll (numbered m p.lines)) := by
  induction p generalizing b m with
  | done => exact .done h hi
  | call f x rest ih =>
    obtain ⟨hcall, houter, hkind⟩ := h.feed_call hi (s := ⟨_, m⟩) (isLine_call f x)
    exact .call hcall houter hkind (ih hcall.sound hcall.ignored (m + 1))
  | block hd body rest ihb ihr =>
    have he := h.feed_header hi (s := ⟨hd.text, m⟩) hd.isLine hd.kind_ne_caseLabel
    have hin := ihb he.sound he.ignored (m + 1)
    have hbody := hin.enclosed h he
    rw [Program.lines, Builder.feedAll_numbered_append, Builder.feedAll_braced hin.grown.ignored]
    exact .block hbody (ihr hbody.grown.sound hbody.grown.ignored _)
  | fork k body other rest ihb iho ihr =>
    have he := h.feed_header hi (s := ⟨k.firstText, m⟩) k.isLine_first k.first_ne_caseLabel
    have hin := ihb he.sound he.ignored (m + 1)
    have hbody := hin.enclosed h he
    have hc := hbody.grown
    rw [Program.lines, Builder.feedAll_numbered_append, Builder.feedAll_braced hin.grown.ignored,
      Builder.feedAll_numbered_append]
    generalize m + (braced k.firstText body.lines).length = m'
    have he' := hc.sound.feed_header hc.ignored (s := ⟨k.secondText, m'⟩) k.isLine_second
      k.second_ne_caseLabel
    have hin' := iho he'.sound he'.ignored (m' + 1)
    have hother := hin'.enclosed hc.sound he'
    rw [Builder.feedAll_braced hin'.grown.ignored]
    exact .fork hbody hother (ihr hother.grown.sound hother.grown.ignored _)

/-! ## the chart of a program -/

/-- the edges to two nodes come from one node -/
def Flowchart.Siblings (chart : Flowchart) (i j : Nat) : Prop :=
  ∃ e ∈ chart.edges, ∃ f ∈ chart.edges,
    e.target = .node i ∧ f.target = .node j ∧ e.source = f.source

instance (chart : Flowchart) (i j : Nat) : Decidable (chart.Siblings i j) :=
  inferInstanceAs (Decidable (∃ e ∈ chart.edges, ∃ f ∈ chart.edges,
    e.target = .node i ∧ f.target = .node j ∧ e.source = f.source))

/-- both headers of every fork hang on one node -/
def Program.FansOut (p : Program) : Prop :=
  ∀ ij ∈ p.forks 0, (Flowchart.ofSource p.source).Siblings ij.1 ij.2

/-- an edge stands at the place that the number of its target says -/
theorem Builder.Hung.siblings_iff {b : Builder} (hs : b.Sound) (h : b.Hung) {i j : Nat} :
    b.chart.Siblings i j ↔ SourcesAt (· = ·) b.edges i j := by
  have htree := h.isRootedTree hs
  have hplace : ∀ e ∈ b.edges, ∀ n : Nat, e.target = .node n → b.edges[n]? = some e := by
    intro e he n hn
    obtain ⟨m, hm⟩ := List.getElem?_of_mem he
    have htarget := htree.targets m e hm
    rw [hn] at htarget
    rwa [NodeId.node.inj htarget]
  constructor
  · rintro ⟨e, he, f, hf, hi, hj, heq⟩
    exact ⟨e, f, hplace e he i hi, hplace f hf j hj, heq⟩
  · rintro ⟨e, f, he, hf, heq⟩
    exact ⟨e, List.mem_of_getElem? he, f, List.mem_of_getElem? hf, htree.targets i e he,
      htree.targets j f hf, heq⟩

theorem SourcesAt.not_ne {edges : List Edge} {i j : Nat} (h : SourcesAt (· = ·) edges i j) :
    ¬ SourcesAt (· ≠ ·) edges i j := by
  rintro ⟨e', f', he', hf', hne⟩
  obtain ⟨e, f, he, hf, heq⟩ := h
  rw [he] at he'
  rw [hf] at hf'
  cases he'
  cases hf'
  exact hne heq

/-- the builder is back at the bottom, so nothing is noted -/
theorem Program.ran_source (p : Program) : p.Ran .fresh (Builder.ofSource p.source) := by
  have hran := p.ran .fresh rfl 1
  have hdepth : (Builder.fresh.feedAll (numbered 1 p.lines)).outer.length + 1 ≤ 1 :=
    hran.grown.depth
  have houter : (Builder.fresh.feedAll (numbered 1 p.lines)).outer = [] :=
    List.length_eq_zero_iff.1 (by omega)
  have hfinish : Builder.ofSource p.source = Builder.fresh.feedAll (numbered 1 p.lines) := by
    show (Builder.fresh.feedAll (statements p.source)).finish = _
    rw [p.statements_source, Builder.finish, houter, hran.grown.ignored]
    rfl
  rw [hfinish]
  exact hran

/-- **the alternatives and handlers of a program fan out if and only if its forks stand apart**;
whether they do or not, the nodes are those of the program, every alternative and every handler
belongs to a fork, and no scope is open in the end -/
theorem Program.fansOut_iff (p : Program) :
    (p.FansOut ↔ p.IsApart none) ∧ (Builder.ofSource p.source).depth = 1 ∧
    (Flowchart.ofSource p.source).nodes.map Node.kind = p.kinds.map some ∧
    (∀ ij ∈ p.forks 0, IsForkAt p.kinds ij.1 ij.2) ∧
    ∀ j k, p.kinds[j]? = some k → k.leaves ≠ none → ∃ i, (i, j) ∈ p.forks 0 := by
  have hran := p.ran_source
  have hhung : (Builder.ofSource p.source).Hung := (Builder.hung_performAll [.run p.source]).2
  have hsiblings := fun {i j : Nat} => hhung.siblings_iff hran.grown.sound (i := i) (j := j)
  refine ⟨⟨?_, ?_⟩, ?_, hran.grown.kinds, p.isForkAt [] rfl, ?_⟩
  · intro hfan
    by_contra ha
    obtain ⟨ij, hij, hne⟩ := hran.torn ha
    exact (hsiblings.1 (hfan ij hij)).not_ne hne
  · intro ha ij hij
    exact hsiblings.2 (hran.together ha ij hij)
  · have hle : (Builder.ofSource p.source).depth ≤ 1 := hran.grown.depth
    exact Nat.le_antisymm hle (Nat.le_add_left 1 _)
  · intro j k hj hk
    have hfork := p.exists_fork hj hk 0
    rwa [Nat.zero_add] at hfork

/-- a branch with an alternative, directly in a branch -/
def nestedBranch : Program :=
  let x : Callee := ⟨"x".toList, [], by decide, by decide, by decide, by decide⟩
  let y : Callee := ⟨"y".toList, [], by decide, by decide, by decide, by decide⟩
  let a : Group := ⟨"a".toList, by decide, by decide, by decide, by decide, by decide⟩
  let b : Group := ⟨"b".toList, by decide, by decide, by decide, by decide, by decide⟩
  let nothing : Group := ⟨[], by decide, by decide, by decide, by decide, by decide⟩
  .block (.branch a) (.fork (.branch b) (.call x nothing .done) (.call y nothing .done) .done) .done

/-- its alternative hangs on the start, past the branch that it belongs to -/
theorem nestedBranch_torn :
    nestedBranch.source
      = "if (a) \x7b\nif (b) \x7b\nx();\n\x7d\nelse \x7b\ny();\n\x7d\n\x7d".toList ∧
    nestedBranch.forks 0 = [(1, 3)] ∧
    ¬ (Flowchart.ofSource nestedBranch.source).Siblings 1 3 := by
  decide +kernel

end CodeChart
