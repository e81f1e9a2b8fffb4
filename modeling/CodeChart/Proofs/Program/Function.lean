import CodeChart.Proofs.Program.Action
import CodeChart.Proofs.Program.Fanout

/-!
# Functions one after the other

The header of a function should hang on the node that the one before it hangs on, and no scope
should stay open behind a function.  A header without braces opens a scope like any other, but there
is no brace that leaves it: the closing brace of a block around it leaves this scope in place of the
one that belongs to the block.

* `Builder.Sunk`       some more nodes, and some more scopes on top of those that were open;
* `Builder.Sunk.pop`   what the closing brace of a block leaves;
* `Action.sunk`        an action leaves as many scopes open as it leaks, by induction;
* `FunctionDef.ran`    the state behind a function;
* `FunctionDef.consecutive_iff`   two functions are siblings if and only if the first one leaks
                       nothing.
-/

namespace CodeChart

/-! ## scopes on top of others -/

/-- `size` more nodes with their edges, and `leaks` more scopes; no scope but the innermost one is
touched -/
structure Builder.Sunk (b b' : Builder) (leaks size : Nat) : Prop where
  sound : b'.Sound
  ignored : b'.ignored = 0
  nodes : b.nodes <+: b'.nodes
  size : b'.nodes.length = b.nodes.length + size
  edges : b.edges <+: b'.edges
  outer : b.outer <:+ b'.outer
  depth : b'.depth = b.depth + leaks

theorem Builder.Sunk.refl {b : Builder} (h : b.Sound) (hi : b.ignored = 0) : b.Sunk b 0 0 :=
  ⟨h, hi, List.prefix_refl _, rfl, List.prefix_refl _, List.suffix_refl _, rfl⟩

theorem Builder.Sunk.trans {a b c : Builder} {m n i j : Nat} (hab : a.Sunk b m i)
    (hbc : b.Sunk c n j) : a.Sunk c (m + n) (i + j) where
  sound := hbc.sound
  ignored := hbc.ignored
  nodes := hab.nodes.trans hbc.nodes
  size := by rw [hbc.size, hab.size, Nat.add_assoc]
  edges := hab.edges.trans hbc.edges
  outer := hab.outer.trans hbc.outer
  depth := by rw [hbc.depth, hab.depth, Nat.add_assoc]

/-- a first node with the label of a statement of kind `k`, which hangs on the innermost node -/
structure Builder.Headed (b b' : Builder) (k : Kind) (t : Text) : Prop where
  node : ∃ n, b.nodes ++ [n] <+: b'.nodes ∧ n.label = k.label t
  edge : ∃ e, b.edges ++ [e] <+: b'.edges ∧ e.source = b.top.id

theorem Builder.Headed.sunk {b c d : Builder} {k : Kind} {t : Text} {n i : Nat}
    (h : b.Headed c k t) (hs : c.Sunk d n i) : b.Headed d k t := by
  obtain ⟨m, hm, hlabel⟩ := h.node
  obtain ⟨e, he, hsource⟩ := h.edge
  exact ⟨⟨m, hm.trans hs.nodes, hlabel⟩, ⟨e, he.trans hs.edges, hsource⟩⟩

theorem Builder.Headed.node_at {b b' : Builder} {k : Kind} {t : Text} (h : b.Headed b' k t) :
    ∃ n, b'.nodes[b.nodes.length]? = some n ∧ n.label = k.label t := by
  obtain ⟨n, hn, hlabel⟩ := h.node
  exact ⟨n, getElem?_of_concat_prefix hn, hlabel⟩

theorem Builder.Headed.edge_at {b b' : Builder} {k : Kind} {t : Text} (h : b.Headed b' k t)
    (hs : b.Sound) : ∃ e, b'.edges[b.nodes.length]? = some e ∧ e.source = b.top.id := by
  obtain ⟨e, he, hsource⟩ := h.edge
  rw [← hs.edges_eq]
  exact ⟨e, getElem?_of_concat_prefix he, hsource⟩

/-! ## one statement -/

section
variable {b : Builder} (h : b.Sound) (hi : b.ignored = 0) {s : Statement} {k : Kind}
  (hleaves : k.leaves = none) (hk : k ≠ .caseLabel)
include h hi hleaves hk

/-- a statement that follows on nothing draws one node, and changes nothing else but the scopes -/
theorem Builder.Sound.feed_node {p : Placement} (hs : IsLine s.text k p) :
    (b.feed s).Sound ∧ (b.feed s).ignored = 0 ∧
    (∃ n, (b.feed s).nodes = b.nodes ++ [n] ∧ n.label = k.label s.text) ∧
    ∃ e, (b.feed s).edges = b.edges ++ [e] ∧ e.source = b.top.id := by
  have hsource : b.sourceFor k = b.top.id := by
    cases k with
    | caseLabel => exact absurd rfl hk
    | _ => rfl
  have hfeed := Builder.feed_line hi hs
  rw [Builder.leaveFor_of_stays hleaves] at hfeed
  obtain ⟨_, _, _, hsettle⟩ := (b.draw k s.text s.line).settle_fields k p b.nextId
  have hsound := h.feed s
  rw [hfeed, hsettle, Builder.draw_eq] at hsound ⊢
  exact ⟨hsound, hi, ⟨_, rfl, rfl⟩, ⟨_, rfl, hsource⟩⟩

theorem Builder.Sound.feed_headed {p : Placement} (hs : IsLine s.text k p) :
    b.Headed (b.feed s) k s.text := by
  obtain ⟨_, _, ⟨n, hn, hlabel⟩, ⟨e, he, hsource⟩⟩ := h.feed_node hi hleaves hk hs
  exact ⟨⟨n, by rw [hn], hlabel⟩, ⟨e, by rw [he], hsource⟩⟩

theorem Builder.Sound.sunk_of_outer {p : Placement} (hs : IsLine s.text k p) {n : Nat}
    {extra : List Scope} (houter : (b.feed s).outer = extra ++ b.outer) (hn : extra.length = n) :
    b.Sunk (b.feed s) n 1 := by
  obtain ⟨hsound, hignored, ⟨m, hm, _⟩, ⟨e, he, _⟩⟩ := h.feed_node hi hleaves hk hs
  refine ⟨hsound, hignored, by rw [hm]; exact List.prefix_append _ _, ?_,
    by rw [he]; exact List.prefix_append _ _, houter ▸ List.suffix_append _ _, ?_⟩
  · rw [hm, List.length_append, List.length_singleton]
  · rw [Builder.depth, Builder.depth, houter, List.length_append, hn]
    omega

/-- a header that opens a scope -/
theorem Builder.Sound.feed_nest (hs : IsLine s.text k .nest) :
    b.Sunk (b.feed s) 1 1 ∧ (b.feed s).outer = b.top :: b.outer := by
  have houter : (b.feed s).outer = b.top :: b.outer := by
    have hfeed := Builder.feed_line hi hs
    rw [Builder.leaveFor_of_stays hleaves, Builder.settle_nest] at hfeed
    rw [hfeed]
    rfl
  exact ⟨@Builder.Sound.sunk_of_outer _ h hi _ _ hleaves hk _ hs _ [b.top] houter rfl, houter⟩

/-- a statement that takes the place of the innermost node -/
theorem Builder.Sound.feed_replace (hs : IsLine s.text k .chain) :
    b.Sunk (b.feed s) 0 1 ∧ (b.feed s).top.id = b.nextId := by
  have hfeed := Builder.feed_line hi hs
  rw [Builder.leaveFor_of_stays hleaves, Builder.settle_chain] at hfeed
  have houter : (b.feed s).outer = b.outer := by
    rw [hfeed]
    rfl
  refine ⟨@Builder.Sound.sunk_of_outer _ h hi _ _ hleaves hk _ hs _ [] houter rfl, ?_⟩
  rw [hfeed]
  rfl

end

/-! ## a block -/

/-- the closing brace leaves the scope of the header if the block leaks nothing, and one that leaked
otherwise -/
theorem Builder.Sunk.pop {b c d : Builder} {n i : Nat} (hb : b.Sunk c 1 1)
    (houter : c.outer = b.top :: b.outer) (hc : c.Sunk d n i) :
    b.Sunk d.pop n (i + 1) ∧ (n = 0 → d.pop.top = b.top) ∧ (0 < n → b.top ∈ d.pop.outer) := by
  obtain ⟨extra, hextra⟩ := hc.outer
  rw [houter] at hextra
  have hlength : extra.length = n := by
    have hdepth := hc.depth
    rw [Builder.depth, Builder.depth, houter, ← hextra, List.length_append] at hdepth
    omega
  -- the scopes behind the brace
  have hscopes : b.outer <:+ d.pop.outer ∧ d.pop.outer.length = b.outer.length + n ∧
      (n = 0 → d.pop.top = b.top) ∧ (0 < n → b.top ∈ d.pop.outer) := by
    cases extra with
    | nil =>
      rw [Builder.pop_of_outer hextra.symm]
      subst hlength
      exact ⟨List.suffix_refl _, rfl, fun _ => rfl, fun hn => absurd hn (Nat.lt_irrefl 0)⟩
    | cons s more =>
      rw [Builder.pop_of_outer hextra.symm]
      refine ⟨⟨more ++ [b.top], by simp⟩, ?_, fun hn => ?_, fun _ => by simp⟩
      · show (more ++ b.top :: b.outer).length = _
        rw [← hlength, List.length_append, List.length_cons, List.length_cons]
        omega
      · rw [hn] at hlength
        cases hlength
  have hignored : d.pop.ignored = 0 := by
    rcases d.pop_cases with ⟨_, hp⟩ | ⟨_, _, _, hp⟩ <;> rw [hp] <;> exact hc.ignored
  refine ⟨⟨hc.sound.pop, hignored, ?_, ?_, ?_, hscopes.1, ?_⟩, hscopes.2.2⟩
  · rw [Builder.nodes_pop]
    exact hb.nodes.trans hc.nodes
  · rw [Builder.nodes_pop, hc.size, hb.size]
    omega
  · rw [Builder.edges_pop]
    exact hb.edges.trans hc.edges
  · rw [Builder.depth, Builder.depth, hscopes.2.1]
    omega

theorem exists_braced {ss : List Statement} {t : Text} {body : List Text}
    (h : ss.map Statement.text = braced t body) : ∃ s inner closer,
      ss = s :: (inner ++ [closer]) ∧ s.text = t ∧ inner.map Statement.text = body ∧
        closer.text = ['}'] := by
  obtain ⟨s, rest, rfl, hs, hrest⟩ := List.map_eq_cons_iff.1 h
  obtain ⟨inner, last, rfl, hinner, hlast⟩ := List.map_eq_append_iff.1 hrest
  obtain ⟨closer, rfl, hcloser⟩ := List.map_eq_singleton_iff.1 hlast
  exact ⟨s, inner, closer, rfl, hs, hinner, hcloser⟩

/-- a header, a block that leaks `n` scopes and the closing brace -/
theorem Builder.Sound.feedAll_block {b : Builder} (h : b.Sound) (hi : b.ignored = 0) {k : Kind}
    (hleaves : k.leaves = none) (hk : k ≠ .caseLabel) {s closer : Statement}
    {inner : List Statement} (hs : IsLine s.text k .nest) (hcloser : closer.text = ['}'])
    {n i : Nat} (hinner : (b.feed s).Sunk ((b.feed s).feedAll inner) n i) :
    b.Headed (b.feedAll (s :: (inner ++ [closer]))) k s.text ∧
    b.Sunk (b.feedAll (s :: (inner ++ [closer]))) n (i + 1) ∧
    (n = 0 → (b.feedAll (s :: (inner ++ [closer]))).top = b.top) ∧
    (0 < n → b.top ∈ (b.feedAll (s :: (inner ++ [closer]))).outer) := by
  obtain ⟨hsunk, houter⟩ := h.feed_nest hi hleaves hk hs
  obtain ⟨m, hm, hlabel⟩ := ((h.feed_headed hi hleaves hk hs).sunk hinner).node
  obtain ⟨e, he, hsource⟩ := ((h.feed_headed hi hleaves hk hs).sunk hinner).edge
  have hall : b.feedAll (s :: (inner ++ [closer])) = ((b.feed s).feedAll inner).pop := by
    rw [Builder.feedAll_cons, Builder.feedAll_append, Builder.feedAll_cons, Builder.feedAll_nil,
      Builder.feed_closer hinner.ignored (.inl hcloser)]
  rw [hall]
  refine ⟨⟨⟨m, ?_, hlabel⟩, ⟨e, ?_, hsource⟩⟩, hsunk.pop houter hinner⟩
  · rwa [Builder.nodes_pop]
  · rwa [Builder.edges_pop]

/-! ## actions -/

mutual

theorem Action.sunk (a : Action) {ss : List Statement} (hss : ss.map Statement.text = a.pieces)
    {b : Builder} (h : b.Sound) (hi : b.ignored = 0) :
    b.Sunk (b.feedAll ss) a.leaks a.size := by
  match a with
  | .call f x =>
    obtain ⟨s, rfl, hs⟩ := List.map_eq_singleton_iff.1 hss
    exact (h.feed_replace hi rfl (by decide) (hs ▸ isLine_call f x)).1
  | .block g body =>
    obtain ⟨s, inner, closer, rfl, hs, hinner, hcloser⟩ := exists_braced hss
    have hline : IsLine s.text g.kind .nest := hs ▸ g.isLine_open
    have hopen := (h.feed_nest hi g.leaves_eq g.kind_ne hline).1
    exact (h.feedAll_block hi g.leaves_eq g.kind_ne hline hcloser
      (actionPieces_sunk body hinner hopen.sound hopen.ignored)).2.1
  | .emptyBlock g gap =>
    obtain ⟨s, rfl, hs⟩ := List.map_eq_singleton_iff.1 hss
    exact (h.feed_replace hi g.leaves_eq g.kind_ne (hs ▸ g.isLine_empty gap)).1
  | .bare g body =>
    obtain ⟨s, rest, rfl, hs, hrest⟩ := List.map_eq_cons_iff.1 hss
    have hline : IsLine s.text g.kind (if '{' ∈ g.condition.text then .chain else .nest) :=
      hs ▸ g.isLine_bare
    have hheader : b.Sunk (b.feed s) g.leaks 1 := by
      unfold Guard.leaks
      split at hline
      · rename_i hbrace
        rw [if_pos hbrace]
        exact (h.feed_replace hi g.leaves_eq g.kind_ne hline).1
      · rename_i hbrace
        rw [if_neg hbrace]
        exact (h.feed_nest hi g.leaves_eq g.kind_ne hline).1
    have hall := hheader.trans (body.sunk hrest hheader.sound hheader.ignored)
    rwa [Nat.add_comm 1] at hall

theorem actionPieces_sunk (as : List Action) {ss : List Statement}
    (hss : ss.map Statement.text = actionPieces as) {b : Builder} (h : b.Sound)
    (hi : b.ignored = 0) : b.Sunk (b.feedAll ss) (actionLeaks as) (actionSize as) := by
  match as with
  | [] =>
    rw [List.map_eq_nil_iff.1 hss]
    exact .refl h hi
  | a :: rest =>
    obtain ⟨first, more, rfl, hfirst, hmore⟩ := List.map_eq_append_iff.1 hss
    have hhead := a.sunk hfirst h hi
    rw [Builder.feedAll_append]
    exact hhead.trans (actionPieces_sunk rest hmore hhead.sound hhead.ignored)

end

/-! ## functions -/

/-- what a function does between two states -/
structure FunctionDef.Ran (f : FunctionDef) (b b' : Builder) : Prop where
  headed : b.Headed b' .plain f.header
  sunk : b.Sunk b' f.leaks f.size
  top : b'.top.id = b.top.id ↔ f.leaks = 0 ∧ f.IsBlock

theorem Builder.Sound.top_ne_nextId {b : Builder} (h : b.Sound) : b.nextId ≠ b.top.id := by
  intro heq
  have hold := h.top_older
  rw [heq] at hold
  exact NodeId.not_older_self _ hold

theorem Builder.Sound.top_ne_of_mem {b : Builder} (h : b.Sound) {s : Scope} (hs : s ∈ b.outer) :
    b.top.id ≠ s.id := by
  intro heq
  have hold := (List.pairwise_cons.1 h.ascending).1 s hs
  rw [heq] at hold
  exact NodeId.not_older_self _ hold

theorem FunctionDef.ran (f : FunctionDef) {ss : List Statement}
    (hss : ss.map Statement.text = f.pieces) {b : Builder} (h : b.Sound) (hi : b.ignored = 0) :
    f.Ran b (b.feedAll ss) := by
  cases f with
  | block f x body =>
    obtain ⟨s, inner, closer, rfl, hs, hinner, hcloser⟩ := exists_braced hss
    have hline : IsLine s.text .plain .nest := hs ▸ isLine_function f x
    have hopen := (h.feed_nest hi rfl (by decide) hline).1
    obtain ⟨hheaded, hsunk, hback, hstuck⟩ := h.feedAll_block hi rfl (by decide) hline hcloser
      (actionPieces_sunk body hinner hopen.sound hopen.ignored)
    refine ⟨hs ▸ hheaded, hsunk, ?_⟩
    constructor
    · intro htop
      refine ⟨?_, trivial⟩
      by_contra hleaks
      exact hsunk.sound.top_ne_of_mem (hstuck (Nat.pos_of_ne_zero hleaks)) htop
    · rintro ⟨hleaks, _⟩
      rw [hback hleaks]
  | emptyBlock f x gap =>
    obtain ⟨s, rfl, hs⟩ := List.map_eq_singleton_iff.1 hss
    have hline : IsLine s.text .plain .chain := hs ▸ isLine_emptyFunction f x gap
    obtain ⟨hsunk, htop⟩ := h.feed_replace hi rfl (by decide) hline
    refine ⟨hs ▸ h.feed_headed hi rfl (by decide) hline, hsunk, ?_⟩
    constructor
    · intro heq
      exact absurd (htop.symm.trans heq) h.top_ne_nextId
    · rintro ⟨_, hblock⟩
      exact hblock.elim

theorem Builder.finish_fields (b : Builder) :
    b.finish.nodes = b.nodes ∧ b.finish.edges = b.edges ∧ (b.Sound → b.finish.Sound) := by
  obtain ⟨notices, hfinish⟩ := b.finish_eq
  rw [hfinish]
  exact ⟨rfl, rfl, fun h => h.note notices⟩

/-- a header at the start of a text and another one behind some statements -/
theorem siblings_iff_top {src : Text} {b last : Builder} {k k' : Kind} {t t' : Text}
    (hlast : Builder.ofSource src = last.finish) (hs : last.Sound)
    (hfirst : Builder.fresh.Headed last k t) (hb : b.Sound) (hsecond : b.Headed last k' t') :
    (Flowchart.ofSource src).Siblings 0 b.nodes.length ↔ b.top.id = Builder.fresh.top.id := by
  obtain ⟨_, hedges, hsound⟩ := last.finish_fields
  rw [← hlast] at hedges hsound
  have hhung : (Builder.ofSource src).Hung := (Builder.hung_performAll [.run src]).2
  obtain ⟨e, he, hsource⟩ : ∃ e, last.edges[0]? = some e ∧ e.source = Builder.fresh.top.id :=
    hfirst.edge_at .fresh
  obtain ⟨e', he', hsource'⟩ := hsecond.edge_at hb
  refine (hhung.siblings_iff (hsound hs)).trans ?_
  rw [hedges, ← hsource, ← hsource']
  constructor
  · rintro ⟨d, d', hd, hd', heq⟩
    rw [he] at hd
    rw [he'] at hd'
    rw [Option.some.inj hd, Option.some.inj hd', heq]
  · intro heq
    exact ⟨e, e', he, he', heq.symm⟩

/-- **two functions are siblings if and only if no scope stays open in the first one** and it is not
an empty one on one line; the nodes with the numbers `0` and `f.size` are their headers, and every
scope that stays open is one behind the function too -/
theorem FunctionDef.consecutive_iff (f g : FunctionDef) {src : Text}
    (h : IsLaidOut (f.pieces ++ g.pieces) src) :
    let behind := Builder.fresh.feedAll ((statements src).take f.pieces.length)
    let chart := Flowchart.ofSource src
    (chart.Siblings 0 f.size ∧ behind.depth = Builder.fresh.depth ↔ f.leaks = 0 ∧ f.IsBlock) ∧
    behind.depth = Builder.fresh.depth + f.leaks ∧
    chart.nodes[0]?.map Node.label = some f.header ∧
    chart.nodes[f.size]?.map Node.label = some g.header := by
  have htexts : (statements src).map Statement.text = f.pieces ++ g.pieces :=
    texts_of_layout h fun p hp => (List.mem_append.1 hp).elim (f.isPiece p) (g.isPiece p)
  obtain ⟨first, second, hss, hfirst, hsecond⟩ := List.map_eq_append_iff.1 htexts
  have hlength : first.length = f.pieces.length := by rw [← hfirst, List.length_map]
  have hf := f.ran hfirst .fresh rfl
  have hg := g.ran hsecond hf.sunk.sound hf.sunk.ignored
  have htake : (statements src).take f.pieces.length = first := by
    rw [hss, List.take_left' hlength]
  have hall : Builder.ofSource src
      = ((Builder.fresh.feedAll first).feedAll second).finish := by
    rw [← Builder.feedAll_append, ← hss]
    rfl
  have hsize : (Builder.fresh.feedAll first).nodes.length = f.size := by
    rw [hf.sunk.size]
    exact Nat.zero_add _
  generalize (Builder.fresh.feedAll first).feedAll second = last at hall hg
  have hheaded := hf.headed.sunk hg.sunk
  have hsiblings : (Flowchart.ofSource src).Siblings 0 f.size ↔ f.leaks = 0 ∧ f.IsBlock := by
    rw [← hsize, ← hf.top]
    exact siblings_iff_top hall hg.sunk.sound hheaded hf.sunk.sound hg.headed
  have hchart : (Flowchart.ofSource src).nodes = last.nodes := by
    show (Builder.ofSource src).nodes = last.nodes
    rw [hall]
    exact last.finish_fields.1
  -- the nodes of the two headers
  obtain ⟨n, hn, hlabel⟩ : ∃ n, last.nodes[0]? = some n ∧ n.label = f.header := hheaded.node_at
  obtain ⟨n', hn', hlabel'⟩ := hg.headed.node_at
  rw [hsize] at hn'
  simp only [htake]
  refine ⟨⟨fun hboth => hsiblings.1 hboth.1, fun hkeeps => ⟨hsiblings.2 hkeeps, ?_⟩⟩,
    hf.sunk.depth, ?_, ?_⟩
  · rw [hf.sunk.depth, hkeeps.1]
    rfl
  · rw [hchart, hn, Option.map_some, hlabel]
  · rw [hchart, hn', Option.map_some, hlabel']
    rfl

/-- all that is asked of the parts of a callee at once, to be computed -/
def Callee.checked (word rest : Text) (h : IsPlainStart word rest ∧ rest.all isInert = true ∧
    '\n' ∉ rest ∧ '/' ∉ rest) : Callee :=
  ⟨word, rest, h.1, h.2.1, h.2.2.1, h.2.2.2⟩

def Group.checked (text : Text) (h : isBalanced 0 .outside text = true ∧ braceBalance text = 0 ∧
    '\n' ∉ text ∧ hasPair '/' '*' text = false ∧ hasPair '/' '/' text = false) : Group :=
  ⟨text, h.1, h.2.1, h.2.2.1, h.2.2.2.1, h.2.2.2.2⟩

/-- a function with a loop that has no braces -/
def bareLoop : FunctionDef :=
  let f : Callee := .checked "void".toList " f".toList (by decide)
  let x : Callee := .checked "x".toList [] (by decide)
  let a : Group := .checked "a".toList (by decide)
  let nothing : Group := .checked [] (by decide)
  .block f nothing [.bare ⟨"while".toList, by decide, a⟩ (.call x nothing)]

def plainFunction : FunctionDef :=
  let g : Callee := .checked "void".toList " g".toList (by decide)
  let y : Callee := .checked "y".toList [] (by decide)
  let nothing : Group := .checked [] (by decide)
  .block g nothing [.call y nothing]

/-- a function without such a loop in front of it, one statement on each line -/
theorem consecutive_iff_lines :
    let src := List.intercalate ['\n'] (plainFunction.pieces ++ bareLoop.pieces)
    let behind := Builder.fresh.feedAll ((statements src).take plainFunction.pieces.length)
    let chart := Flowchart.ofSource src
    IsLaidOut (plainFunction.pieces ++ bareLoop.pieces) src ∧
    (chart.Siblings 0 plainFunction.size ∧ behind.depth = Builder.fresh.depth ↔
      plainFunction.leaks = 0 ∧ plainFunction.IsBlock) ∧
    behind.depth = Builder.fresh.depth + plainFunction.leaks ∧
    chart.nodes[0]?.map Node.label = some plainFunction.header ∧
    chart.nodes[plainFunction.size]?.map Node.label = some bareLoop.header :=
  ⟨isLaidOut_lines _, FunctionDef.consecutive_iff plainFunction bareLoop (isLaidOut_lines _)⟩

/-- behind the loop the second function hangs in the first one, and a scope stays open -/
theorem bareLoop_torn :
    let src := "void f() \x7b\nwhile (a) x();\n\x7d\nvoid g() \x7b\ny();\n\x7d".toList
    (statements src).map Statement.text = bareLoop.pieces ++ plainFunction.pieces ∧
    ¬ (Flowchart.ofSource src).Siblings 0 bareLoop.size ∧
    (Builder.fresh.feedAll ((statements src).take bareLoop.pieces.length)).depth = 2 := by
  decide +kernel

end CodeChart
