import CodeChart.Proofs.Filing
import CodeChart.Proofs.Graph.Plain
import CodeChart.Proofs.Include.Directive
import CodeChart.Proofs.Include.Tree

/-!
# Names, files and edges

A name is looked up among the files of a chart in their order, and the edges are what the names in
the files lead to.

* `Names`               a name ends the path of a file, component by component
                        (`matchesName_iff`);
* `IncludeChart.StandsFor`   the first file that a name names, which is what it is resolved to
                        (`IncludeChart.resolve_eq_some_iff`);
* `SourceFile.Holds`    the names in the directives of a file that can be read;
* `IncludeChart.targets`, `IncludeChart.unresolvedIn`   what the names in one file lead to, and
                        those that lead nowhere;
* `IncludeChart.graph_eq_foldl`, `IncludeChart.unresolved_eq_filter`   the loop over the names makes
                        the edges and keeps the rest as if each were done for itself;
* `IncludeChart.graph_eq`    the graph of a chart, without the order in which it was made;
* `IncludeChart.lookups`     the names in the files with what they are resolved to, which is all
                        that edges and names without a file depend on
                        (`IncludeChart.edges_congr`);
* `IncludeChart.IsExact`     the edges are the names that stand for another file, and the names
                        that stand for none are kept as such; `IncludeChart.isExact` for files in
                        the order of their paths.
-/

namespace CodeChart

/-! ## the file of a name -/

/-- a backslash in the name stands for a slash -/
def Names (name : Text) (path : Path) : Prop :=
  components (replaceChar '\\' '/' name) <:+ components path.text

instance (name : Text) (path : Path) : Decidable (Names name path) :=
  inferInstanceAs (Decidable (_ <:+ _))

theorem matchesName_iff {name : Text} {f : SourceFile} :
    IncludeChart.matchesName (replaceChar '\\' '/' name) f = true ↔ Names name f.path := by
  rw [Names, components_suffix_iff, IncludeChart.matchesName, Bool.or_eq_true, beq_iff_eq,
    List.isSuffixOf_iff_suffix]

/-! ## the names in a file -/

/-- the file can be read, and these are the names in its directives -/
def SourceFile.Holds (f : SourceFile) (names : List Text) : Prop :=
  ∃ text, f.content = some text ∧ HoldsNames text names

theorem SourceFile.Holds.includes_eq {f : SourceFile} {names : List Text} (h : f.Holds names) :
    IncludeChart.includes f = names.map trim := by
  obtain ⟨text, hcontent, hnames⟩ := h
  rw [IncludeChart.includes, hcontent, ← holdsNames_iff.1 hnames]
  rfl

theorem SourceFile.includes_cases (f : SourceFile) :
    (∃ names, f.Holds names) ∨ f.content = none ∧ IncludeChart.includes f = [] := by
  cases h : f.content with
  | none => exact .inr ⟨rfl, by rw [IncludeChart.includes, h]; rfl⟩
  | some text => exact .inl ⟨directives text, text, h, holdsNames_directives text⟩

/-- what does not hold of no names at all is a matter of the names that a file holds -/
theorem SourceFile.exists_holds_iff {f : SourceFile} {P : List Text → Prop} (hnil : ¬ P []) :
    P (IncludeChart.includes f) ↔ ∃ names, f.Holds names ∧ P (names.map trim) := by
  constructor
  · intro h
    rcases f.includes_cases with ⟨names, hnames⟩ | ⟨_, hnone⟩
    · exact ⟨names, hnames, hnames.includes_eq ▸ h⟩
    · exact absurd (hnone ▸ h) hnil
  · rintro ⟨names, hnames, h⟩
    rw [hnames.includes_eq]
    exact h

namespace IncludeChart

variable {c : IncludeChart}

/-! ## looking up -/

/-- the least number of a file that has the name -/
structure StandsFor (c : IncludeChart) (name : Text) (j : Nat) : Prop where
  named : ∃ f, c.files[j]? = some f ∧ Names name f.path
  first : ∀ i < j, ∀ f, c.files[i]? = some f → ¬ Names name f.path

theorem resolve_eq (c : IncludeChart) (name : Text) :
    c.resolve name = c.files.findIdx? fun f => Names name f.path := by
  refine congrArg (List.findIdx? · c.files) (funext fun f => ?_)
  rw [Bool.eq_iff_iff, matchesName_iff, decide_eq_true_eq]

theorem resolve_eq_some_iff {name : Text} {j : Nat} :
    c.resolve name = some j ↔ c.StandsFor name j := by
  simp only [resolve_eq, List.findIdx?_eq_some_iff_getElem, decide_eq_true_eq]
  constructor
  · rintro ⟨hlt, hnamed, hfirst⟩
    refine ⟨⟨c.files[j], List.getElem?_eq_getElem hlt, hnamed⟩, fun i hi f hf => ?_⟩
    obtain ⟨_, rfl⟩ := List.getElem?_eq_some_iff.1 hf
    exact hfirst i hi
  · rintro ⟨⟨f, hf, hnamed⟩, hfirst⟩
    obtain ⟨hlt, rfl⟩ := List.getElem?_eq_some_iff.1 hf
    refine ⟨hlt, hnamed, fun i hi => ?_⟩
    exact hfirst i hi _ (List.getElem?_eq_getElem (hi.trans hlt))

theorem resolve_eq_none_iff {name : Text} :
    c.resolve name = none ↔ ∀ f ∈ c.files, ¬ Names name f.path := by
  simp only [resolve_eq, List.findIdx?_eq_none_iff, decide_eq_false_iff_not]

theorem lt_length_of_resolve {name : Text} {j : Nat} (h : c.resolve name = some j) :
    j < c.files.length := by
  obtain ⟨f, hf, _⟩ := (resolve_eq_some_iff.1 h).named
  exact (List.getElem?_eq_some_iff.1 hf).1

/-! ## numbers -/

theorem length_ids (c : IncludeChart) : c.ids.length = c.files.length := List.length_range

theorem map_fst_numbered (c : IncludeChart) : c.numbered.map Prod.fst = c.ids :=
  List.map_fst_zip (Nat.le_of_eq c.length_ids)

theorem map_snd_numbered (c : IncludeChart) : c.numbered.map Prod.snd = c.files :=
  List.map_snd_zip (Nat.le_of_eq c.length_ids.symm)

theorem mem_numbered {k : Nat} {f : SourceFile} :
    (k, f) ∈ c.numbered ↔ c.files[k]? = some f := by
  rw [List.mem_iff_getElem?]
  constructor
  · rintro ⟨i, hi⟩
    obtain ⟨hid, hfile⟩ := List.getElem?_zip_eq_some.1 hi
    obtain ⟨hlt, hk⟩ := List.getElem?_eq_some_iff.1 hid
    have hi : i = k := (List.getElem_range hlt).symm.trans hk
    exact hi ▸ hfile
  · intro h
    have hlt := (List.getElem?_eq_some_iff.1 h).1
    exact ⟨k, List.getElem?_zip_eq_some.2 ⟨List.getElem?_range hlt, h⟩⟩

/-! ## the loop over the names -/

def targets (c : IncludeChart) (k : Nat) (f : SourceFile) : List Nat :=
  ((includes f).filterMap c.resolve).filter (· ≠ k)

def edgePairs (c : IncludeChart) : List (Nat × Nat) :=
  c.numbered.flatMap fun p => (c.targets p.1 p.2).map fun t => (p.1, t)

def unresolvedIn (c : IncludeChart) (f : SourceFile) : List Text :=
  (includes f).filter fun name => (c.resolve name).isNone

/-- edges are made by the names that lead to another file, and by no others -/
theorem graph_foldl_follow (k : Nat) (names : List Text) (w : Wiring) :
    (names.foldl (c.follow k) w).graph = ((names.filterMap c.resolve).filter (· ≠ k)).foldl
      (fun g t => g.addEdge k t []) w.graph := by
  induction names generalizing w with
  | nil => rfl
  | cons name names ih =>
    rw [List.foldl_cons, ih, follow]
    cases hname : c.resolve name with
    | none => rw [List.filterMap_cons_none hname]
    | some t =>
      rw [List.filterMap_cons_some hname, List.filter_cons]
      by_cases ht : t = k
      · simp [ht]
      · simp [ht]

/-- names are kept when they lead to no file -/
theorem unresolved_foldl_follow (k : Nat) (names : List Text) (w : Wiring) :
    (names.foldl (c.follow k) w).unresolved
      = (names.filter fun name => (c.resolve name).isNone).foldl
        (fun m name => Assoc.push m k name) w.unresolved := by
  induction names generalizing w with
  | nil => rfl
  | cons name names ih =>
    rw [List.foldl_cons, ih, follow, List.filter_cons]
    cases c.resolve name with
    | none => rfl
    | some t =>
      by_cases ht : t = k
      · simp [ht]
      · simp [ht]

theorem graph_eq_foldl (c : IncludeChart) :
    c.graph = c.edgePairs.foldl (fun g e => g.addEdge e.1 e.2 []) c.collected := by
  have hfile : ∀ (w : Wiring) (p : Nat × SourceFile),
      (c.targets p.1 p.2).foldl (fun g t => g.addEdge p.1 t []) w.graph
        = ((includes p.2).foldl (c.follow p.1) w).graph := fun w p =>
    (graph_foldl_follow p.1 (includes p.2) w).symm
  rw [edgePairs, List.foldl_flatMap]
  simp only [List.foldl_map]
  exact (List.foldl_hom Wiring.graph hfile).symm

theorem unresolved_eq_filter (c : IncludeChart) : c.unresolved
    = (c.numbered.map fun p => (p.1, c.unresolvedIn p.2)).filter fun p => !p.2.isEmpty := by
  have hfile : ∀ (w : Wiring) (p : Nat × SourceFile),
      (c.unresolvedIn p.2).foldl (fun m name => Assoc.push m p.1 name) w.unresolved
        = ((includes p.2).foldl (c.follow p.1) w).unresolved := fun w p =>
    (unresolved_foldl_follow p.1 (includes p.2) w).symm
  have hids : (c.numbered.map Prod.fst).Nodup := c.map_fst_numbered ▸ List.nodup_range
  rw [← Assoc.foldl_push_lists (fun p => c.unresolvedIn p.2) hids]
  exact (List.foldl_hom Wiring.unresolved hfile).symm

/-! ## edges -/

theorem mem_targets {k j : Nat} {f : SourceFile} :
    j ∈ c.targets k f ↔ j ≠ k ∧ ∃ name ∈ includes f, c.resolve name = some j := by
  rw [targets, List.mem_filter, List.mem_filterMap, decide_eq_true_eq, and_comm]

theorem mem_edgePairs {i j : Nat} :
    (i, j) ∈ c.edgePairs ↔
      i ≠ j ∧ ∃ f, c.files[i]? = some f ∧ ∃ name ∈ includes f, c.resolve name = some j := by
  rw [edgePairs, List.mem_flatMap]
  constructor
  · rintro ⟨⟨k, f⟩, hf, hpair⟩
    obtain ⟨t, ht, heq⟩ := List.mem_map.1 hpair
    obtain ⟨rfl, rfl⟩ := Prod.mk.inj heq
    obtain ⟨hne, hname⟩ := mem_targets.1 ht
    exact ⟨hne.symm, f, mem_numbered.1 hf, hname⟩
  · rintro ⟨hne, f, hf, hname⟩
    exact ⟨(i, f), mem_numbered.2 hf, List.mem_map_of_mem (mem_targets.2 ⟨hne.symm, hname⟩)⟩

/-- the nodes of a chart, its files in their order -/
def fileNodes (c : IncludeChart) : List (GraphNode Nat) :=
  c.numbered.map fun p => ⟨p.1, fileAttributes p.2⟩

theorem map_id_fileNodes (c : IncludeChart) : c.fileNodes.map GraphNode.id = c.ids := by
  rw [fileNodes, List.map_map]
  exact c.map_fst_numbered

theorem ofPairs_fileAttributes (f : SourceFile) :
    Assoc.ofPairs (fileAttributes f) = fileAttributes f :=
  Assoc.ofPairs_of_nodup
    (show ["label".toList, "path".toList, "folder".toList].Nodup by decide)

theorem mem_ids {k : Nat} : k ∈ c.ids ↔ k < c.files.length := List.mem_range

theorem graph_eq (c : IncludeChart) : c.graph = Graph.plain c.fileNodes c.edgePairs.eraseDups := by
  have hids : (c.numbered.map Prod.fst).Nodup := c.map_fst_numbered ▸ List.nodup_range
  have hnodes : c.collected = Graph.plain c.fileNodes [] := by
    rw [collected, Graph.foldl_addNode (Graph.empty false []) Prod.fst
      (fun p => fileAttributes p.2) hids]
    show Graph.mk false [] (c.numbered.map _) [] = Graph.mk false [] (c.numbered.map _) []
    simp only [ofPairs_fileAttributes]
  have hends : ∀ p ∈ c.edgePairs,
      p.1 ∈ c.fileNodes.map GraphNode.id ∧ p.2 ∈ c.fileNodes.map GraphNode.id := by
    rintro ⟨i, j⟩ hp
    obtain ⟨_, f, hf, name, _, hname⟩ := mem_edgePairs.1 hp
    rw [map_id_fileNodes]
    exact ⟨mem_ids.2 (List.getElem?_eq_some_iff.1 hf).1, mem_ids.2 (lt_length_of_resolve hname)⟩
  rw [graph_eq_foldl, hnodes, Graph.foldl_addEdge_plain List.nodup_nil hends]
  rfl

theorem ends_graph (c : IncludeChart) :
    c.graph.edges.map GraphEdge.ends = c.edgePairs.eraseDups := by
  rw [graph_eq, Graph.ends_plain]

/-- the neighbours of a file by the numbers in their identifiers -/
def neighbours (c : IncludeChart) (x : Nat) : List Nat := sortById (c.graph.neighbours x)

theorem map_id_nodes (c : IncludeChart) : c.graph.nodes.map GraphNode.id = c.ids := by
  rw [graph_eq]
  exact c.map_id_fileNodes

theorem adjacency_eq (c : IncludeChart) :
    c.adjacency = c.ids.map fun x => (x, c.neighbours x) := by
  rw [← map_id_nodes, List.map_map]
  rfl

/-! ## names without a file -/

theorem unresolvedIn_eq (c : IncludeChart) (f : SourceFile) :
    c.unresolvedIn f = (includes f).filter fun name => ∀ g ∈ c.files, ¬ Names name g.path := by
  refine List.filter_congr fun name _ => ?_
  rw [Bool.eq_iff_iff, Option.isNone_iff_eq_none, resolve_eq_none_iff, decide_eq_true_eq]

theorem mem_unresolved {i : Nat} {missing : List Text} :
    (i, missing) ∈ c.unresolved ↔
      missing ≠ [] ∧ ∃ f, c.files[i]? = some f ∧ missing = c.unresolvedIn f := by
  rw [unresolved_eq_filter, List.mem_filter, List.mem_map]
  constructor
  · rintro ⟨⟨⟨k, f⟩, hf, heq⟩, hne⟩
    obtain ⟨rfl, rfl⟩ := Prod.mk.inj heq
    exact ⟨by simpa using hne, f, mem_numbered.1 hf, rfl⟩
  · rintro ⟨hne, f, hf, rfl⟩
    exact ⟨⟨(i, f), mem_numbered.2 hf, rfl⟩, by simpa using hne⟩

theorem map_fst_unresolved_sublist (c : IncludeChart) :
    (c.unresolved.map Prod.fst).Sublist c.ids := by
  have hsub := (List.filter_sublist (p := fun p => !p.2.isEmpty)
    (l := c.numbered.map fun p => (p.1, c.unresolvedIn p.2))).map Prod.fst
  rw [← unresolved_eq_filter, List.map_map] at hsub
  exact c.map_fst_numbered ▸ hsub

/-! ## what edges depend on -/

/-- the names in every file, each with the number that it is resolved to -/
def lookups (c : IncludeChart) : List (List (Text × Option Nat)) :=
  c.files.map fun f => (includes f).map fun name => (name, c.resolve name)

theorem zip_lookups (c : IncludeChart) : c.ids.zip c.lookups = c.numbered.map fun p =>
    (p.1, (includes p.2).map fun name => (name, c.resolve name)) :=
  List.zip_map_right

theorem edgePairs_eq (c : IncludeChart) :
    c.edgePairs = (c.ids.zip c.lookups).flatMap fun p =>
      ((p.2.filterMap Prod.snd).filter (· ≠ p.1)).map fun t => (p.1, t) := by
  rw [zip_lookups, List.flatMap_map]
  simp only [List.filterMap_map]
  rfl

theorem unresolved_eq (c : IncludeChart) :
    c.unresolved = ((c.ids.zip c.lookups).map fun p =>
      (p.1, (p.2.filter fun q => q.2.isNone).map Prod.fst)).filter fun p => !p.2.isEmpty := by
  have hfst : ∀ names : List Text, names.map (Prod.fst ∘ fun name => (name, c.resolve name))
      = names := List.map_id'
  rw [zip_lookups, List.map_map, unresolved_eq_filter]
  refine congrArg _ (List.map_congr_left fun p _ => ?_)
  simp only [Function.comp_apply, List.filter_map, List.map_map, hfst]
  rfl

section
variable {d : IncludeChart} (h : c.lookups = d.lookups)
include h

theorem ids_congr : c.ids = d.ids := by
  have hlength := congrArg List.length h
  rw [lookups, lookups, List.length_map, List.length_map] at hlength
  rw [ids, ids, hlength]

theorem edges_congr : c.graph.edges = d.graph.edges := by
  have hpairs : c.edgePairs = d.edgePairs := by
    rw [edgePairs_eq, edgePairs_eq, ids_congr h, h]
  rw [graph_eq, graph_eq, hpairs]
  rfl

theorem adjacency_congr : c.adjacency = d.adjacency := by
  rw [adjacency_eq, adjacency_eq, ids_congr h]
  simp only [neighbours, Graph.neighbours, Graph.successors, Graph.predecessors, edges_congr h]

theorem unresolved_congr : c.unresolved = d.unresolved := by
  rw [unresolved_eq, unresolved_eq, ids_congr h, h]

end

/-! ## exactness -/

structure IsExact (c : IncludeChart) : Prop where
  ordered : c.files.Pairwise fun f g => pathLe f g = true
  nodes : c.graph.nodes.map GraphNode.id = List.range c.files.length
  once : (c.graph.edges.map GraphEdge.ends).Nodup
  edge : ∀ i j, (i, j) ∈ c.graph.edges.map GraphEdge.ends ↔
    i ≠ j ∧ ∃ f names, c.files[i]? = some f ∧ f.Holds names ∧
      ∃ name ∈ names, c.StandsFor (trim name) j
  keys : (c.unresolved.map Prod.fst).Sublist (List.range c.files.length)
  missing : ∀ i missing, (i, missing) ∈ c.unresolved ↔
    missing ≠ [] ∧ ∃ f names, c.files[i]? = some f ∧ f.Holds names ∧
      missing = (names.map trim).filter fun name => ∀ g ∈ c.files, ¬ Names name g.path

theorem isExact (h : c.files.Pairwise fun f g => pathLe f g = true) :
    c.IsExact where
  ordered := h
  nodes := c.map_id_nodes
  once := by
    rw [ends_graph]
    exact nodup_eraseDups _
  edge i j := by
    rw [ends_graph, List.mem_eraseDups, mem_edgePairs]
    refine and_congr_right fun _ => exists_congr fun f => ?_
    rw [exists_and_left]
    refine and_congr_right fun _ => ?_
    rw [f.exists_holds_iff (P := fun names => ∃ name ∈ names, c.resolve name = some j) (by simp)]
    simp only [List.mem_map, exists_exists_and_eq_and, resolve_eq_some_iff]
  keys := c.map_fst_unresolved_sublist
  missing i missing := by
    rw [mem_unresolved]
    refine and_congr_right fun hne => exists_congr fun f => ?_
    rw [exists_and_left, unresolvedIn_eq]
    refine and_congr_right fun _ => ?_
    exact f.exists_holds_iff (P := fun names => missing = names.filter fun name =>
      ∀ g ∈ c.files, ¬ Names name g.path) hne

end IncludeChart

end CodeChart
