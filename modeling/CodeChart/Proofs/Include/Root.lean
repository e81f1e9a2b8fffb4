import CodeChart.Proofs.Include.Chart

/-!
# Charts of one tree at two roots

The paths of files begin with the root, and names are compared with these paths.  So a name can
lead through the last directories of the root to a file below it, and such a name is the only thing
that tells two roots of the same tree apart.

* `Crosses`             a name that leads through the root to a place below it;
                        `names_append_iff` says that the other names see the place alone;
* `IncludeChart.IsMoved`     two charts with the same files at two roots, and the same edges and
                        names without a file unless an included name crosses one root only;
* `includeChart_isMoved`     two directories with the same leaves have such charts.
-/

namespace CodeChart

/-! ## names at a root -/

/-- the name is an end of the root's path, and behind it the place -/
def Crosses (root : Path) (name : Text) (place : List FileName) : Prop :=
  ∃ s, s <:+ root.leading ∧ s ≠ [] ∧ components (replaceChar '\\' '/' name) = s ++ place

instance (root : Path) (name : Text) (place : List FileName) :
    Decidable (Crosses root name place) :=
  decidable_of_iff (∃ s ∈ root.leading.tails,
    s ≠ [] ∧ components (replaceChar '\\' '/' name) = s ++ place) (by
      simp only [List.mem_tails, Crosses])

theorem names_append_iff (root : Path) (name : Text) {place : List FileName} (hplace : place ≠ [])
    (hslash : ∀ x ∈ place, '/' ∉ x) :
    Names name (root.append place) ↔
      components (replaceChar '\\' '/' name) <:+ place ∨ Crosses root name place := by
  rw [Names, Path.components_append root hplace, components_intercalate_of_not_mem hplace hslash,
    suffix_append_iff, Crosses]
  refine or_congr_right (exists_congr fun s => ?_)
  rw [and_left_comm]

namespace IncludeChart

/-- a name sees the place of a file below the root, unless it crosses the root -/
def NamesBelow (c : IncludeChart) (root : Path) : Prop :=
  ∀ name, ∀ f ∈ c.files, ∀ below ∈ f.path.relativeTo? root,
    (Names name f.path ↔
      components (replaceChar '\\' '/' name) <:+ below.parts ∨ Crosses root name below.parts)

structure IsMoved (root root' : Path) (c d : IncludeChart) : Prop where
  places : ∃ places : List Path,
    c.files.map (fun f => f.path.relativeTo? root) = places.map some ∧
      d.files.map (fun f => f.path.relativeTo? root') = places.map some
  folders : c.files.map SourceFile.folder = d.files.map SourceFile.folder
  contents : c.files.map SourceFile.content = d.files.map SourceFile.content
  names : c.NamesBelow root ∧ d.NamesBelow root'
  same : (∀ f ∈ c.files, ∀ name ∈ includes f, ∀ g ∈ c.files, ∀ below ∈ g.path.relativeTo? root,
      (Crosses root name below.parts ↔ Crosses root' name below.parts)) →
    c.graph.edges = d.graph.edges ∧ c.adjacency = d.adjacency ∧ c.unresolved = d.unresolved

/-! ## files of the same leaves -/

section
variable {root root' : Path} {c d : IncludeChart} {leaves : List (List FileName × Entry)}

/-- places as a tree has them -/
structure ArePlaces (leaves : List (List FileName × Entry)) : Prop where
  nonempty : ∀ leaf ∈ leaves, leaf.1 ≠ []
  names : ∀ leaf ∈ leaves, ∀ name ∈ leaf.1, Entry.IsFileName name

theorem names_ofLeaf_iff (h : ArePlaces leaves) (name : Text) {leaf : List FileName × Entry}
    (hleaf : leaf ∈ leaves) :
    Names name (SourceFile.ofLeaf root leaf).path ↔
      components (replaceChar '\\' '/' name) <:+ leaf.1 ∨ Crosses root name leaf.1 :=
  names_append_iff root name (h.nonempty leaf hleaf) fun x hx => (h.names leaf hleaf x hx).2

theorem relativeTo?_ofLeaf (leaf : List FileName × Entry) :
    (SourceFile.ofLeaf root leaf).path.relativeTo? root = some ⟨.relative, leaf.1⟩ :=
  Path.relativeTo?_append root leaf.1

theorem namesBelow_of_leaves (h : ArePlaces leaves)
    (hc : c.files = leaves.map (SourceFile.ofLeaf root)) : c.NamesBelow root := by
  intro name f hf below hbelow
  rw [hc] at hf
  obtain ⟨leaf, hleaf, rfl⟩ := List.mem_map.1 hf
  rw [relativeTo?_ofLeaf] at hbelow
  obtain rfl := Option.some.inj hbelow
  exact names_ofLeaf_iff h name hleaf

theorem resolve_congr_of_crosses (h : ArePlaces leaves)
    (hc : c.files = leaves.map (SourceFile.ofLeaf root))
    (hd : d.files = leaves.map (SourceFile.ofLeaf root')) {name : Text}
    (hname : ∀ leaf ∈ leaves, (Crosses root name leaf.1 ↔ Crosses root' name leaf.1)) :
    c.resolve name = d.resolve name := by
  have hnamed : leaves.map (fun leaf => decide (Names name (SourceFile.ofLeaf root leaf).path))
      = leaves.map fun leaf => decide (Names name (SourceFile.ofLeaf root' leaf).path) := by
    refine List.map_congr_left fun leaf hleaf => ?_
    rw [decide_eq_decide, names_ofLeaf_iff h name hleaf, names_ofLeaf_iff h name hleaf,
      hname leaf hleaf]
  have hfirst := congrArg (List.findIdx? id) hnamed
  rw [List.findIdx?_map, List.findIdx?_map] at hfirst
  rw [resolve_eq, resolve_eq, hc, hd, List.findIdx?_map, List.findIdx?_map]
  exact hfirst

theorem isMoved_of_leaves (h : ArePlaces leaves)
    (hc : c.files = leaves.map (SourceFile.ofLeaf root))
    (hd : d.files = leaves.map (SourceFile.ofLeaf root')) : IsMoved root root' c d where
  places := by
    refine ⟨leaves.map fun leaf => ⟨.relative, leaf.1⟩, ?_, ?_⟩
    · rw [hc, List.map_map, List.map_map]
      exact List.map_congr_left fun leaf _ => relativeTo?_ofLeaf leaf
    · rw [hd, List.map_map, List.map_map]
      exact List.map_congr_left fun leaf _ => relativeTo?_ofLeaf leaf
  folders := by
    rw [hc, hd, List.map_map, List.map_map]
    rfl
  contents := by
    rw [hc, hd, List.map_map, List.map_map]
    rfl
  names := ⟨namesBelow_of_leaves h hc, namesBelow_of_leaves h hd⟩
  same hcross := by
    have hresolve : ∀ leaf ∈ leaves, ∀ name ∈ includes (SourceFile.ofLeaf root leaf),
        c.resolve name = d.resolve name := by
      intro leaf hleaf name hname
      have hmem : ∀ leaf ∈ leaves, SourceFile.ofLeaf root leaf ∈ c.files := fun leaf hleaf =>
        hc ▸ List.mem_map_of_mem hleaf
      refine resolve_congr_of_crosses h hc hd fun other hother => ?_
      exact hcross _ (hmem leaf hleaf) name hname _ (hmem other hother) ⟨.relative, other.1⟩
        (relativeTo?_ofLeaf other)
    have hlookups : c.lookups = d.lookups := by
      rw [lookups, lookups, hc, hd, List.map_map, List.map_map]
      refine List.map_congr_left fun leaf hleaf => List.map_congr_left fun name hname => ?_
      rw [hresolve leaf hleaf name hname]
    exact ⟨edges_congr hlookups, adjacency_congr hlookups, unresolved_congr hlookups⟩

end

end IncludeChart

/-! ## two directories with the same tree -/

theorem includeChart_isMoved {ws ws' : Workspace} {root root' : Path}
    (htree : (ws.tree root).isTree = true)
    (hleaves : (ws.tree root).allLeaves.Perm (ws'.tree root').allLeaves)
    (ignored : List FileName) (chosen : List Text) :
    IncludeChart.IsMoved root root' (ws.includeChart root ignored chosen)
      (ws'.includeChart root' ignored chosen) := by
  have hplaces : IncludeChart.ArePlaces ((ws.tree root).keptLeaves ignored chosen) := by
    refine ⟨fun leaf => Entry.place_ne_nil_of_mem_keptLeaves, fun leaf hleaf => ?_⟩
    exact Entry.isFileName_place htree leaf
      (Entry.mem_sourceLeaves.1 (List.mem_of_mem_filter hleaf)).below
  have hkept := Entry.keptLeaves_congr ignored chosen htree hleaves
  exact IncludeChart.isMoved_of_leaves hplaces (ws.files_includeChart root ignored chosen)
    (hkept ▸ ws'.files_includeChart root' ignored chosen)

/-- a file names its neighbour by way of a directory called `proj` -/
def neighbours : Entry := .dir [
  ("a.h".toList, .ofAscii ""),
  ("m.c".toList, .ofAscii "#include \"proj/a.h\"\n")]

def copies : Workspace := .ofLocation (.dir [
  ("copy".toList, neighbours),
  ("proj".toList, neighbours),
  ("x".toList, .dir [("proj".toList, neighbours)])]) []

def chartAt (root : String) : IncludeChart :=
  copies.includeChart (Path.ofText root.toList) standardIgnored []

theorem tree_copies : ∀ root ∈ ["copy", "proj", "x/proj"],
    copies.tree (Path.ofText root.toList) = neighbours := by
  refine List.forall_mem_cons.2 ⟨rfl, List.forall_mem_cons.2 ⟨rfl, ?_⟩⟩
  exact List.forall_mem_singleton.2 rfl

/-- the name crosses both roots -/
theorem isMoved_copies :
    (copies.tree (Path.ofText "proj".toList)).isTree = true ∧
      (copies.tree (Path.ofText "proj".toList)).allLeaves.Perm
        (copies.tree (Path.ofText "x/proj".toList)).allLeaves ∧
      (chartAt "proj").graph.edges.map GraphEdge.ends = [(1, 0)] ∧
      (chartAt "proj").graph.edges = (chartAt "x/proj").graph.edges ∧
      (chartAt "proj").adjacency = (chartAt "x/proj").adjacency ∧
      (chartAt "proj").unresolved = (chartAt "x/proj").unresolved := by
  have htree : (copies.tree (Path.ofText "proj".toList)).isTree = true := by decide +kernel
  have hleaves : (copies.tree (Path.ofText "proj".toList)).allLeaves.Perm
      (copies.tree (Path.ofText "x/proj".toList)).allLeaves := by
    rw [tree_copies "proj" (by decide), tree_copies "x/proj" (by decide)]
  refine ⟨htree, hleaves, ?_, (includeChart_isMoved htree hleaves standardIgnored []).same ?_⟩
  · rw [chartAt, Workspace.includeChart, Workspace.sourceFiles_of_sorted (by decide +kernel)]
    decide +kernel
  · rw [Workspace.includeChart, Workspace.sourceFiles_of_sorted (by decide +kernel)]
    decide +kernel

/-- the name crosses one root only -/
theorem moves_edge :
    (copies.tree (Path.ofText "proj".toList)).allLeaves
        = (copies.tree (Path.ofText "copy".toList)).allLeaves ∧
      (chartAt "proj").graph.edges ≠ (chartAt "copy").graph.edges := by
  refine ⟨?_, ?_⟩
  · rw [tree_copies "proj" (by decide), tree_copies "copy" (by decide)]
  · rw [chartAt, chartAt, Workspace.includeChart, Workspace.includeChart,
      Workspace.sourceFiles_of_sorted (by decide +kernel),
      Workspace.sourceFiles_of_sorted (by decide +kernel)]
    decide +kernel

end CodeChart
