import CodeChart.Proofs.Include.Chart

/-!
# Charts with files that cannot be read

A chart sees of a file its path, its folder and the names that it includes.  A file that cannot be
read includes none, so an empty file in its place makes no difference.

* `SourceFile.readable`      a file with the content that its chart sees;
                             `IncludeChart.readable_looksLike` for all files at once;
* `IncludeChart.LooksLike`   the same graph, neighbours, names without a file and drawn text;
* `includeChart_isExact`     the chart of a tree is exact, and is that of the tree with empty files
                             in place of some that cannot be read.
-/

namespace CodeChart

/-! ## content as it is seen -/

def SourceFile.readable (f : SourceFile) : SourceFile :=
  { f with content := some (f.content.getD []) }

namespace IncludeChart

theorem includes_readable (f : SourceFile) : includes f.readable = includes f := by
  cases hf : f.content with
  | none =>
    rw [includes, includes, SourceFile.readable, hf]
    show (directives []).map trim = []
    rw [directives_nil, List.map_nil]
  | some text =>
    rw [includes, includes, SourceFile.readable, hf]
    rfl

def readable (c : IncludeChart) : IncludeChart :=
  { c with files := c.files.map SourceFile.readable }

structure LooksLike (c d : IncludeChart) : Prop where
  graph : c.graph = d.graph
  adjacency : c.adjacency = d.adjacency
  unresolved : c.unresolved = d.unresolved
  text : ∀ absolute direction,
    (c.drawing absolute direction).toMermaid = (d.drawing absolute direction).toMermaid

theorem LooksLike.symm {c d : IncludeChart} (h : c.LooksLike d) : d.LooksLike c :=
  ⟨h.graph.symm, h.adjacency.symm, h.unresolved.symm, fun a t => (h.text a t).symm⟩

theorem LooksLike.trans {c d e : IncludeChart} (h : c.LooksLike d) (h' : d.LooksLike e) :
    c.LooksLike e where
  graph := h.graph.trans h'.graph
  adjacency := h.adjacency.trans h'.adjacency
  unresolved := h.unresolved.trans h'.unresolved
  text a t := (h.text a t).trans (h'.text a t)

/-! ## charts of readable files -/

section
variable (c : IncludeChart)

theorem ids_readable : c.readable.ids = c.ids := by
  rw [ids, ids, readable, List.length_map]

theorem numbered_readable :
    c.readable.numbered = c.numbered.map (Prod.map id SourceFile.readable) := by
  rw [numbered, numbered, ids_readable]
  exact List.zip_map_right

theorem resolve_readable (name : Text) : c.readable.resolve name = c.resolve name := by
  rw [resolve, resolve, readable, List.findIdx?_map]
  rfl

theorem lookups_readable : c.readable.lookups = c.lookups := by
  rw [lookups, lookups, readable, List.map_map]
  refine List.map_congr_left fun f _ => ?_
  rw [Function.comp_apply, includes_readable]
  exact List.map_congr_left fun name _ => congrArg (Prod.mk name) (c.resolve_readable name)

theorem graph_readable : c.readable.graph = c.graph := by
  have hnodes : c.readable.fileNodes = c.fileNodes := by
    rw [fileNodes, fileNodes, numbered_readable, List.map_map]
    rfl
  have hedges := edges_congr c.lookups_readable
  rw [graph_eq, graph_eq] at hedges ⊢
  rw [Graph.plain, Graph.plain, hnodes]
  exact congrArg _ hedges

theorem shownFiles_readable :
    c.readable.shownFiles = c.shownFiles.map (Prod.map id SourceFile.readable) := by
  rw [shownFiles, shownFiles, numbered_readable, graph_readable, List.filter_map]
  rfl

theorem groups_readable : c.readable.groups = c.groups := by
  rw [groups, groups, shownFiles_readable, List.foldl_map]
  rfl

theorem shownEdges_readable : c.readable.shownEdges = c.shownEdges := by
  rw [shownEdges, shownEdges, shownFiles_readable, graph_readable]
  simp only [List.map_map]
  rfl

theorem drawing_readable (absolute : Path → Path) (direction : Text) :
    c.readable.drawing absolute direction = c.drawing absolute direction := by
  rw [drawing, drawing, groups_readable, shownEdges_readable, shownFiles_readable,
    numbered_readable]
  simp only [List.map_map]
  rfl

theorem readable_looksLike : c.readable.LooksLike c where
  graph := c.graph_readable
  adjacency := adjacency_congr c.lookups_readable
  unresolved := unresolved_congr c.lookups_readable
  text absolute direction := congrArg _ (c.drawing_readable absolute direction)

end

theorem LooksLike.of_readable {c d : IncludeChart} (h : c.readable = d.readable) :
    c.LooksLike d :=
  (h ▸ c.readable_looksLike.symm).trans d.readable_looksLike

end IncludeChart

/-! ## charts of trees -/

theorem readable_ofLeaf_emptiedLeaf (root : Path) (which : List FileName → Bool)
    (leaf : List FileName × Entry) :
    (SourceFile.ofLeaf root (Entry.emptiedLeaf which leaf)).readable
      = (SourceFile.ofLeaf root leaf).readable := by
  obtain ⟨place, e⟩ := leaf
  cases e with
  | file octets => rfl
  | dir entries => rfl
  | special =>
    rw [Entry.emptiedLeaf, Entry.emptied]
    split <;> rfl

theorem includeChart_isExact (ws : Workspace) (root : Path) (ignored : List FileName)
    (chosen : List Text) :
    (∀ f, f ∈ (ws.includeChart root ignored chosen).files ↔ ∃ leaf,
        (ws.tree root).IsFound ignored leaf ∧ Entry.isKept chosen leaf = true ∧
          f = SourceFile.ofLeaf root leaf) ∧
      (ws.includeChart root ignored chosen).IsExact ∧
      ∀ (ws' : Workspace) (which : List FileName → Bool),
        ws'.tree root = (ws.tree root).emptied which →
          (ws'.includeChart root ignored chosen).LooksLike
            (ws.includeChart root ignored chosen) := by
  refine ⟨fun f => Workspace.mem_files_includeChart,
    IncludeChart.isExact (ws.pairwise_files_includeChart root ignored chosen), ?_⟩
  intro ws' which htree
  refine .of_readable ?_
  have hfiles : (ws'.includeChart root ignored chosen).files.map SourceFile.readable
      = (ws.includeChart root ignored chosen).files.map SourceFile.readable := by
    rw [Workspace.files_includeChart, Workspace.files_includeChart, htree,
      Entry.keptLeaves_emptied, List.map_map, List.map_map, List.map_map]
    exact List.map_congr_left fun leaf _ => readable_ofLeaf_emptiedLeaf root which leaf
  exact congrArg (fun files => IncludeChart.mk files chosen) hfiles

/-- a header that cannot be read, and a file that includes it -/
def blockedTree : Entry := .dir [
  ("b.h".toList, .special),
  ("m.c".toList, .ofAscii "#include \"b.h\"\n#include <x.h>\n#include \"m.c\"\n")]

def blockedChart : IncludeChart :=
  (Workspace.ofLocation blockedTree []).includeChart Path.here standardIgnored []

theorem blockedChart_eq : blockedChart
    = IncludeChart.ofFiles (blockedTree.sourceFiles Path.here standardIgnored) [] := by
  rw [blockedChart, Workspace.includeChart, Workspace.sourceFiles_of_sorted (by decide +kernel),
    Workspace.tree_here rfl]

theorem includeChart_blockedTree :
    blockedChart.graph.edges.map GraphEdge.ends = [(1, 0)] ∧
      blockedChart.unresolved = [(1, ["x.h".toList])] ∧
      (Workspace.ofLocation (blockedTree.emptied fun _ => true) []).tree Path.here
        = ((Workspace.ofLocation blockedTree []).tree Path.here).emptied (fun _ => true) ∧
      ((Workspace.ofLocation (blockedTree.emptied fun _ => true) []).includeChart Path.here
        standardIgnored []).LooksLike blockedChart := by
  have htree : (Workspace.ofLocation (blockedTree.emptied fun _ => true) []).tree Path.here
      = ((Workspace.ofLocation blockedTree []).tree Path.here).emptied (fun _ => true) := by
    rw [Workspace.tree_here rfl, Workspace.tree_here rfl]
  refine ⟨?_, ?_, htree, (includeChart_isExact _ _ _ _).2.2 _ _ htree⟩
  · rw [blockedChart_eq]
    decide +kernel
  · rw [blockedChart_eq]
    decide +kernel

end CodeChart
