import CodeChart.Flowchart.Mermaid
import CodeChart.Proofs.Builder.Tree
import CodeChart.Proofs.Flowchart.Label
import CodeChart.Proofs.Pairing
import CodeChart.Proofs.Source.Seam
import CodeChart.Proofs.Text.Lines

/-!
# Reading Mermaid text back

A line of a chart is put together from names, signs and sanitized texts without anything that
escapes them.  It can be read back all the same: a name holds letters and digits only, a label holds
no double quote, and what stands behind a tag is known from the place of the edge.

* `NodeId.IsOwn`         the identifiers that a chart makes; their names tell them apart;
* `Node.LooksLike`, `Edge.LooksLike`, `Flowchart.LooksLike`   what a reader of the text sees;
* `Node.mermaidLine_eq_iff`, `Edge.mermaidLine_eq_iff`   a line tells just that, if it is known
                         which node it stands for or leads to;
* `Flowchart.IsLegible`  what is needed of a chart, and holds of those of source texts;
* `toMermaid_eq_iff`     two source texts give the same Mermaid text just if their charts look
                        alike.
-/

namespace CodeChart

open Mermaid

/-! ## names -/

/-- an identifier that no one gave from outside -/
inductive NodeId.IsOwn : NodeId → Prop
  | start : IsOwn .start
  | node (k : Nat) : IsOwn (.node k)

theorem NodeId.Older.isOwn {a b : NodeId} (h : a.Older b) (hb : b.IsOwn) : a.IsOwn := by
  cases hb with
  | start => exact absurd h a.not_older_start
  | node k =>
    rcases NodeId.older_node_iff.1 h with rfl | ⟨j, _, rfl⟩
    · exact .start
    · exact .node j

theorem NodeId.IsOwn.eq_of_name {a b : NodeId} (ha : a.IsOwn) (hb : b.IsOwn)
    (h : a.name = b.name) : a = b := by
  cases ha with
  | start =>
    cases hb with
    | start => rfl
    | node k =>
      have hletter : 'S' = 'N' := (List.cons.inj h).1
      exact absurd hletter (by decide)
  | node j =>
    cases hb with
    | start =>
      have hletter : 'N' = 'S' := (List.cons.inj h).1
      exact absurd hletter (by decide)
    | node k => rw [decimal_injective (List.append_cancel_left h)]

theorem NodeId.IsOwn.not_mem_name {a : NodeId} (ha : a.IsOwn) {c : Char}
    (hc : c.isAlphanum = false) : c ∉ a.name := by
  have hword : ∀ w : Text, w.all Char.isAlphanum = true → c ∉ w := by
    intro w hw hm
    rw [List.all_eq_true.1 hw c hm] at hc
    cases hc
  cases ha with
  | start => exact hword "Start".toList (by decide)
  | node k =>
    intro hm
    rcases List.mem_append.1 hm with hm | hm
    · exact hword "Node".toList (by decide) hm
    · have hdigit : c.isDigit = true := isDigit_of_mem_decimal hm
      rw [Char.isAlphanum, hdigit, Bool.or_true] at hc
      cases hc

/-! ## nodes -/

structure Node.LooksLike (n m : Node) : Prop where
  id : n.id = m.id
  shape : n.shape = m.shape
  cssClass : n.category.cssClass = m.category.cssClass
  label : sanitize n.label = sanitize m.label

theorem Shape.quote_not_mem_left (s : Shape) : '"' ∉ s.left := by cases s <;> decide

theorem Shape.left_injective : Function.Injective Shape.left := by
  intro s s' h
  cases s <;> cases s' <;> first | rfl | exact absurd h (by decide)

theorem Shape.newline_not_mem (s : Shape) : '\n' ∉ s.left ∧ '\n' ∉ s.right := by
  cases s <;> decide

theorem Category.newline_not_mem_cssClass (c : Category) : '\n' ∉ c.cssClass := by
  cases c with
  | other name =>
    show '\n' ∉ "default".toList
    decide
  | _ => decide

theorem Node.mermaidLine_eq (n : Node) : n.mermaidLine = n.id.name ++ (n.shape.left ++ '"' ::
    (sanitize n.label ++ '"' ::
      (n.shape.right ++ (":::".toList ++ (n.category.cssClass ++ ";".toList))))) := by
  simp [Node.mermaidLine, quoted]

theorem Node.mermaidLine_eq_iff {n m : Node} (hid : n.id = m.id) :
    n.mermaidLine = m.mermaidLine ↔ n.LooksLike m := by
  rw [n.mermaidLine_eq, m.mermaidLine_eq, hid, List.append_cancel_left_eq]
  constructor
  · intro h
    obtain ⟨hleft, hrest⟩ := append_cons_injective n.shape.quote_not_mem_left
      m.shape.quote_not_mem_left h
    obtain ⟨hlabel, hrest⟩ := append_cons_injective (quote_not_mem_sanitize _)
      (quote_not_mem_sanitize _) hrest
    have hshape := Shape.left_injective hleft
    rw [hshape, List.append_cancel_left_eq, List.append_cancel_left_eq,
      List.append_cancel_right_eq] at hrest
    exact ⟨hid, hshape, hrest, hlabel⟩
  · intro h
    rw [h.shape, h.cssClass, h.label]

/-! ## edges -/

structure Edge.LooksLike (e f : Edge) : Prop where
  source : e.source = f.source
  target : e.target = f.target
  dashed : e.style = .dashed ↔ f.style = .dashed
  tag : e.tag.map sanitize = f.tag.map sanitize

/-- an edge with a tag is not dashed, and the tag shows -/
structure Edge.IsMarked (e : Edge) : Prop where
  source : e.source.IsOwn
  tag : e.tag ≠ some []
  solid : e.tag ≠ none → e.style ≠ .dashed

/-- what stands between the blank behind the source and the target -/
def Edge.arrow (e : Edge) : Text :=
  match e.tag with
  | some (c :: tag) => '-' :: '-' :: ' ' :: (sanitize (c :: tag) ++ " --> ".toList)
  | _ => if e.style = .dashed then ['-', '.', '-', '>', ' '] else ['-', '-', '>', ' ']

theorem Edge.mermaidLine_eq (e : Edge) :
    e.mermaidLine = e.source.name ++ ' ' :: (e.arrow ++ (e.target.name ++ ";".toList)) := by
  unfold Edge.mermaidLine Edge.arrow
  by_cases hs : e.style = .dashed
  · cases e.tag with
    | none => simp [hs]
    | some tag => cases tag <;> simp [hs]
  · cases e.tag with
    | none => simp [hs, arrowLine]
    | some tag => cases tag <;> simp [hs, arrowLine]

theorem Edge.IsMarked.arrow_cases {e : Edge} (h : e.IsMarked) :
    (∃ tag, e.tag = some tag ∧ e.style ≠ .dashed ∧
      e.arrow = '-' :: '-' :: ' ' :: (sanitize tag ++ " --> ".toList)) ∨
    (e.tag = none ∧ e.style = .dashed ∧ e.arrow = ['-', '.', '-', '>', ' ']) ∨
    (e.tag = none ∧ e.style ≠ .dashed ∧ e.arrow = ['-', '-', '>', ' ']) := by
  cases ht : e.tag with
  | some tag =>
    refine .inl ⟨tag, rfl, h.solid (by rw [ht]; exact Option.some_ne_none tag), ?_⟩
    cases tag with
    | nil => exact absurd ht h.tag
    | cons c tag => rw [Edge.arrow, ht]
  | none =>
    by_cases hs : e.style = .dashed
    · exact .inr (.inl ⟨rfl, hs, by rw [Edge.arrow, ht]; exact if_pos hs⟩)
    · exact .inr (.inr ⟨rfl, hs, by rw [Edge.arrow, ht]; exact if_neg hs⟩)

/-- no two of the three kinds of arrows begin in the same way -/
theorem Edge.IsMarked.arrow_eq_iff {e f : Edge} (he : e.IsMarked) (hf : f.IsMarked) :
    e.arrow = f.arrow ↔
      (e.style = .dashed ↔ f.style = .dashed) ∧ e.tag.map sanitize = f.tag.map sanitize := by
  rcases he.arrow_cases with ⟨tag, ht, hs, ha⟩ | ⟨ht, hs, ha⟩ | ⟨ht, hs, ha⟩ <;>
  rcases hf.arrow_cases with ⟨tag', ht', hs', ha'⟩ | ⟨ht', hs', ha'⟩ | ⟨ht', hs', ha'⟩ <;>
  simp [ha, ha', ht, ht', hs, hs']

theorem Edge.IsMarked.mermaidLine_eq_iff {e f : Edge} (he : e.IsMarked) (hf : f.IsMarked)
    (htarget : e.target = f.target) : e.mermaidLine = f.mermaidLine ↔ e.LooksLike f := by
  rw [e.mermaidLine_eq, f.mermaidLine_eq, htarget]
  constructor
  · intro h
    obtain ⟨hsource, hrest⟩ := append_cons_injective (he.source.not_mem_name (by decide))
      (hf.source.not_mem_name (by decide)) h
    rw [List.append_cancel_right_eq, he.arrow_eq_iff hf] at hrest
    exact ⟨he.source.eq_of_name hf.source hsource, htarget, hrest.1, hrest.2⟩
  · intro h
    rw [h.source, (he.arrow_eq_iff hf).2 ⟨h.dashed, h.tag⟩]

/-! ## charts -/

structure Flowchart.LooksLike (chart other : Flowchart) : Prop where
  nodes : List.Forall₂ Node.LooksLike chart.nodes other.nodes
  edges : List.Forall₂ Edge.LooksLike chart.edges other.edges

/-- every edge fits its node, nodes are numbered, and labels stand on one line -/
structure Flowchart.IsLegible (chart : Flowchart) : Prop where
  fits : List.Forall₂ Node.FitsEdge chart.nodes chart.edges
  ids : chart.nodes.map Node.id = (List.range chart.nodes.length).map NodeId.node
  oneLine : ∀ n ∈ chart.nodes, '\n' ∉ n.label

/-- without click bindings -/
theorem Flowchart.mermaidLines_eq (chart : Flowchart) {style : Flowchart.Style}
    (h : style.clickBindings = false) : chart.mermaidLines style
      = (graphLine style.direction :: flowchartClasses) ++ (startLine chart.nodes ::
        (chart.nodes.map Node.mermaidLine ++ chart.edges.map Edge.mermaidLine)) := by
  have hclicks : (if style.clickBindings then chart.nodes.map (Node.clickLine style.sourcePath)
      else []) = [] := by
    rw [h]
    rfl
  rw [Flowchart.mermaidLines, hclicks, List.append_nil, List.append_assoc, List.append_assoc,
    List.singleton_append]

theorem startLine_cons (n : Node) (more : List Node) : startLine (n :: more)
    = "Start((START)) --> ".toList ++ (n.id.name ++ ";".toList) :=
  List.append_assoc _ _ _

/-- the line below the classes only tells the first node -/
theorem startLine_congr {nodes other : List Node} (h : nodes.map Node.id = other.map Node.id) :
    startLine nodes = startLine other := by
  cases nodes with
  | nil =>
    rw [List.map_nil, eq_comm, List.map_eq_nil_iff] at h
    rw [h]
  | cons n more =>
    cases other with
    | nil => cases h
    | cons m more' =>
      have hid : n.id = m.id := (List.cons.inj h).1
      rw [startLine_cons, startLine_cons, hid]

theorem Flowchart.isLegible_ofSource (src : Text) : (Flowchart.ofSource src).IsLegible := by
  obtain ⟨hsound, hhung⟩ := Builder.hung_performAll [.run src]
  exact ⟨hhung.fits, hsound.ids_eq, fun _ => newline_not_mem_node⟩

namespace Flowchart.IsLegible

variable {chart other : Flowchart} {style : Flowchart.Style}

theorem isOwn (h : chart.IsLegible) {n : Node} (hn : n ∈ chart.nodes) : n.id.IsOwn := by
  have hid := List.mem_map_of_mem (f := Node.id) hn
  rw [h.ids] at hid
  obtain ⟨k, _, hk⟩ := List.mem_map.1 hid
  rw [← hk]
  exact .node k

theorem node_of_edge (h : chart.IsLegible) {e : Edge} (he : e ∈ chart.edges) :
    ∃ n ∈ chart.nodes, n.FitsEdge e :=
  exists_of_mem_left h.fits.flip he

theorem isMarked (h : chart.IsLegible) {e : Edge} (he : e ∈ chart.edges) : e.IsMarked := by
  obtain ⟨n, hn, hfit⟩ := h.node_of_edge he
  refine ⟨hfit.source.isOwn (h.isOwn hn), fun htag => ?_, fun htag hdashed => ?_⟩
  · rw [hfit.tag] at htag
    split at htag
    · rename_i hcase
      exact hfit.label hcase (Option.some.inj htag)
    · cases htag
  · rw [hfit.tag, hfit.dashed.1 hdashed] at htag
    exact htag rfl

/-! ## lines of a chart -/

theorem nodeLine_oneLine (h : chart.IsLegible) {n : Node} (hn : n ∈ chart.nodes) :
    '\n' ∉ n.mermaidLine := by
  have hid := (h.isOwn hn).not_mem_name (show '\n'.isAlphanum = false by decide)
  have hlabel := newline_not_mem_sanitize (h.oneLine n hn)
  obtain ⟨hleft, hright⟩ := n.shape.newline_not_mem
  rw [n.mermaidLine_eq]
  simp only [List.mem_append, List.mem_cons, not_or]
  exact ⟨hid, hleft, by decide, hlabel, by decide, hright, by decide,
    n.category.newline_not_mem_cssClass, by decide⟩

theorem edgeLine_oneLine (h : chart.IsLegible) {e : Edge} (he : e ∈ chart.edges) :
    '\n' ∉ e.mermaidLine := by
  obtain ⟨n, hn, hfit⟩ := h.node_of_edge he
  have hname : ∀ id : NodeId, id.IsOwn → '\n' ∉ id.name :=
    fun id hid => hid.not_mem_name (by decide)
  have htag : ∀ tag, e.tag = some tag → '\n' ∉ sanitize tag := by
    intro tag htag
    rw [hfit.tag] at htag
    split at htag
    · exact newline_not_mem_sanitize (Option.some.inj htag ▸ h.oneLine n hn)
    · cases htag
  have harrow : '\n' ∉ e.arrow := by
    rcases (h.isMarked he).arrow_cases with ⟨tag, ht, _, ha⟩ | ⟨_, _, ha⟩ | ⟨_, _, ha⟩
    · rw [ha]
      simp only [List.mem_append, List.mem_cons, not_or]
      exact ⟨by decide, by decide, by decide, htag tag ht, by decide⟩
    · rw [ha]
      decide
    · rw [ha]
      decide
  rw [e.mermaidLine_eq, hfit.target]
  simp only [List.mem_append, List.mem_cons, not_or]
  exact ⟨hname _ (h.isMarked he).source, by decide, harrow, hname _ (h.isOwn hn), by decide⟩

theorem startLine_oneLine (h : chart.IsLegible) : '\n' ∉ startLine chart.nodes := by
  cases hn : chart.nodes with
  | nil =>
    show '\n' ∉ "Start((START));".toList
    decide
  | cons n more =>
    have hid := (h.isOwn (hn ▸ List.mem_cons_self)).not_mem_name
      (show '\n'.isAlphanum = false by decide)
    rw [startLine_cons, List.mem_append, List.mem_append, not_or, not_or]
    exact ⟨by decide, hid, by decide⟩

theorem mermaidLines_oneLine (h : chart.IsLegible) (hclick : style.clickBindings = false)
    (hdir : '\n' ∉ style.direction) : ∀ l ∈ chart.mermaidLines style, '\n' ∉ l := by
  have hgraph : '\n' ∉ graphLine style.direction := by
    show '\n' ∉ "graph ".toList ++ style.direction ++ ";".toList
    rw [List.mem_append, List.mem_append, not_or, not_or]
    exact ⟨⟨by decide, hdir⟩, by decide⟩
  have hclasses : ∀ l ∈ flowchartClasses, '\n' ∉ l := by decide
  rw [chart.mermaidLines_eq hclick]
  refine List.forall_mem_append.2 ⟨List.forall_mem_cons.2 ⟨hgraph, hclasses⟩,
    List.forall_mem_cons.2 ⟨h.startLine_oneLine, List.forall_mem_append.2 ⟨?_, ?_⟩⟩⟩
  · exact List.forall_mem_map.2 fun n hn => h.nodeLine_oneLine hn
  · exact List.forall_mem_map.2 fun e he => h.edgeLine_oneLine he

theorem splitOn_toMermaid (h : chart.IsLegible) (hclick : style.clickBindings = false)
    (hdir : '\n' ∉ style.direction) :
    splitOn '\n' (chart.toMermaid style) = chart.mermaidLines style ++ [[]] :=
  splitOn_unlines (h.mermaidLines_oneLine hclick hdir)

theorem looksLike (h : chart.IsLegible) (h' : other.IsLegible)
    (hnodes : chart.nodes.map Node.mermaidLine = other.nodes.map Node.mermaidLine)
    (hedges : chart.edges.map Edge.mermaidLine = other.edges.map Edge.mermaidLine) :
    chart.LooksLike other := by
  have hsize : chart.nodes.length = other.nodes.length := by
    simpa only [List.length_map] using congrArg List.length hnodes
  have hids : chart.nodes.map Node.id = other.nodes.map Node.id := by rw [h.ids, h'.ids, hsize]
  have htargets : chart.edges.map Edge.target = other.edges.map Edge.target := by
    rw [targets_of_fits h.fits, targets_of_fits h'.fits, hids]
  refine ⟨forall₂_of_map_eq hids hnodes fun n _ m _ hid hline => ?_,
    forall₂_of_map_eq htargets hedges fun e he f hf htarget hline => ?_⟩
  · exact (Node.mermaidLine_eq_iff hid).1 hline
  · exact ((h.isMarked he).mermaidLine_eq_iff (h'.isMarked hf) htarget).1 hline

theorem mermaidLines_eq_iff (h : chart.IsLegible) (h' : other.IsLegible)
    (hclick : style.clickBindings = false) :
    chart.mermaidLines style = other.mermaidLines style ↔ chart.LooksLike other := by
  rw [chart.mermaidLines_eq hclick, other.mermaidLines_eq hclick, List.append_cancel_left_eq]
  constructor
  · intro hlines
    obtain ⟨_, hrest⟩ := List.cons.inj hlines
    -- there are as many edges as nodes, so the lines of both are half of the rest each
    have hsize : chart.nodes.length = other.nodes.length := by
      have hlength := congrArg List.length hrest
      simp only [List.length_append, List.length_map, ← h.fits.length_eq,
        ← h'.fits.length_eq] at hlength
      omega
    obtain ⟨hnodes, hedges⟩ := List.append_inj hrest (by simpa using hsize)
    exact h.looksLike h' hnodes hedges
  · intro hlooks
    have hids : chart.nodes.map Node.id = other.nodes.map Node.id :=
      map_eq_of_forall₂ hlooks.nodes fun _ _ _ _ hnode => hnode.id
    have hnodes : chart.nodes.map Node.mermaidLine = other.nodes.map Node.mermaidLine :=
      map_eq_of_forall₂ hlooks.nodes fun _ _ _ _ hnode =>
        (Node.mermaidLine_eq_iff hnode.id).2 hnode
    have hedges : chart.edges.map Edge.mermaidLine = other.edges.map Edge.mermaidLine :=
      map_eq_of_forall₂ hlooks.edges fun e he f hf hedge =>
        ((h.isMarked he).mermaidLine_eq_iff (h'.isMarked hf) hedge.target).2 hedge
    rw [hnodes, hedges, startLine_congr hids]

end Flowchart.IsLegible

/-- **the Mermaid text determines the chart**: two source texts have the same text just if their
charts have the same nodes and edges as far as they are shown; there are two lines for every node -/
theorem toMermaid_eq_iff {style : Flowchart.Style} (hclick : style.clickBindings = false)
    (hdir : '\n' ∉ style.direction) :
    (∀ src : Text, (splitOn '\n' ((Flowchart.ofSource src).toMermaid style)).length
      = 9 + 2 * (Flowchart.ofSource src).nodes.length) ∧
    ∀ src src' : Text, (Flowchart.ofSource src).toMermaid style
        = (Flowchart.ofSource src').toMermaid style ↔
      (Flowchart.ofSource src).LooksLike (Flowchart.ofSource src') := by
  refine ⟨fun src => ?_, fun src src' => ?_⟩
  · have h := Flowchart.isLegible_ofSource src
    rw [h.splitOn_toMermaid hclick hdir, List.length_append,
      Flowchart.length_mermaidLines _ style hclick, ← h.fits.length_eq, List.length_singleton]
    omega
  · have h := Flowchart.isLegible_ofSource src
    have h' := Flowchart.isLegible_ofSource src'
    rw [← h.mermaidLines_eq_iff h' hclick]
    constructor
    · intro htext
      have hsplit := congrArg (splitOn '\n') htext
      rw [h.splitOn_toMermaid hclick hdir, h'.splitOn_toMermaid hclick hdir] at hsplit
      exact List.append_cancel_right hsplit
    · intro hlines
      rw [Flowchart.toMermaid, hlines, Flowchart.toMermaid]

/-- double and single quotes look alike, round and square brackets do not -/
theorem toMermaid_eq_iff_quotes :
    Flowchart.Style.standard.clickBindings = false ∧
    '\n' ∉ Flowchart.Style.standard.direction ∧
    (splitOn '\n' ((Flowchart.ofSource "case \"1\":\ny();".toList).toMermaid .standard)).length
      = 13 ∧
    (Flowchart.ofSource "case \"1\":\ny();".toList).LooksLike
      (Flowchart.ofSource "case '1': y();".toList) ∧
    (Flowchart.ofSource "case \"1\":\ny();".toList).toMermaid .standard
      ≠ (Flowchart.ofSource "case \"1\":\ny[];".toList).toMermaid .standard := by
  have hdir : '\n' ∉ Flowchart.Style.standard.direction := by decide
  obtain ⟨hlines, hsame⟩ := toMermaid_eq_iff rfl hdir
  refine ⟨rfl, hdir, ?_, (hsame _ _).1 (by decide +kernel), fun h => ?_⟩
  · rw [hlines]
    decide +kernel
  · have hlabels := map_eq_of_forall₂ ((hsame _ _).1 h).nodes fun _ _ _ _ hnode => hnode.label
    exact absurd hlabels (by decide +kernel)

end CodeChart
