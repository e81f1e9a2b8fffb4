import CodeChart.Proofs.Include.Chart

/-!
# Charts of chosen folders

A choice of folders takes files away before names are looked up.  So a name may lead to another
file than it does among all files: where the first file that it names is dropped, the first one
that is kept takes its place.

* `IncludeChart.target?`     the first file that a name names; `IncludeChart.Links`, a file that
                             another one includes;
* `IncludeChart.pathGraph`, `IncludeChart.subgraph`   the graph of a chart, all of it or what is
                             left of it on the files of another one, with paths for numbers;
* `IncludeChart.IsDiverted`  a name that leads to another file when files are dropped;
* `IncludeChart.IsRestriction`   what the graph of some of the files has in common with the graph
                             of all files; `IncludeChart.isRestriction` shows it for any choice,
                             and `includeChart_isRestriction` for chosen folders.
-/

namespace CodeChart

namespace IncludeChart

section
variable (c : IncludeChart)

/-! ## files for names -/

def target? (name : Text) : Option SourceFile := c.files.find? fun f => Names name f.path

def Links (f g : SourceFile) : Prop := g ≠ f ∧ ∃ name ∈ includes f, c.target? name = some g

/-! ## paths for numbers -/

def pathOf (k : Nat) : Option Path := c.files[k]?.map SourceFile.path

def pathGraph : Graph (Option Path) := c.graph.rename c.pathOf

/-- the file with the number is one of `d` -/
def isFileOf (d : IncludeChart) (k : Nat) : Bool := c.files[k]?.any fun f => decide (f ∈ d.files)

def subgraph (d : IncludeChart) : Graph (Option Path) :=
  (c.graph.induced (c.isFileOf d)).rename c.pathOf

def pathNode (f : SourceFile) : GraphNode (Option Path) := ⟨some f.path, fileAttributes f⟩

def pathPair (f g : SourceFile) : Option Path × Option Path := (some f.path, some g.path)

def pathPairs : List (Option Path × Option Path) :=
  c.edgePairs.eraseDups.map (Prod.map c.pathOf c.pathOf)

def subPairs (d : IncludeChart) : List (Option Path × Option Path) :=
  (c.edgePairs.eraseDups.filter fun p => c.isFileOf d p.1 && c.isFileOf d p.2).map
    (Prod.map c.pathOf c.pathOf)

end

variable {c d : IncludeChart}

theorem target?_eq_some_iff {name : Text} {g : SourceFile} :
    c.target? name = some g ↔ ∃ j, c.resolve name = some j ∧ c.files[j]? = some g := by
  rw [target?, List.find?_eq_some_iff_getElem]
  constructor
  · rintro ⟨hnamed, j, hlt, rfl, hfirst⟩
    refine ⟨j, resolve_eq_some_iff.2 ⟨⟨_, List.getElem?_eq_getElem hlt, of_decide_eq_true hnamed⟩,
      fun i hi f hf hf' => ?_⟩, List.getElem?_eq_getElem hlt⟩
    obtain ⟨hlt', rfl⟩ := List.getElem?_eq_some_iff.1 hf
    simpa [hf'] using hfirst i hi
  · rintro ⟨j, hj, hg⟩
    obtain ⟨hlt, rfl⟩ := List.getElem?_eq_some_iff.1 hg
    obtain ⟨⟨f, hf, hnamed⟩, hfirst⟩ := resolve_eq_some_iff.1 hj
    obtain rfl := Option.some.inj (hg.symm.trans hf)
    refine ⟨decide_eq_true hnamed, j, hlt, rfl, fun i hi => ?_⟩
    have hnot := hfirst i hi _ (List.getElem?_eq_getElem (hi.trans hlt))
    simpa using hnot

theorem mem_of_target? {name : Text} {g : SourceFile} (h : c.target? name = some g) :
    g ∈ c.files :=
  List.mem_of_find?_eq_some h

theorem Links.mem {f g : SourceFile} (h : c.Links f g) : g ∈ c.files := by
  obtain ⟨_, _, _, htarget⟩ := h
  exact mem_of_target? htarget

/-- where files differ, an edge is a file that another one includes -/
theorem mem_edgePairs_iff_links (h : c.files.Nodup) {i j : Nat} :
    (i, j) ∈ c.edgePairs ↔
      ∃ f g, c.files[i]? = some f ∧ c.files[j]? = some g ∧ c.Links f g := by
  rw [mem_edgePairs]
  constructor
  · rintro ⟨hne, f, hf, name, hname, hj⟩
    have hlt := lt_length_of_resolve hj
    have hg := List.getElem?_eq_getElem hlt
    refine ⟨f, c.files[j], hf, hg, fun heq => hne ?_, name, hname,
      target?_eq_some_iff.2 ⟨j, hj, hg⟩⟩
    exact ((List.getElem?_inj hlt h).1 (hg.trans (heq ▸ hf.symm))).symm
  · rintro ⟨f, g, hf, hg, hne, name, hname, htarget⟩
    obtain ⟨k, hk, hg'⟩ := target?_eq_some_iff.1 htarget
    have hkj : k = j :=
      (List.getElem?_inj (lt_length_of_resolve hk) h).1 (hg'.trans hg.symm)
    refine ⟨fun hij => hne ?_, f, hf, name, hname, hkj ▸ hk⟩
    exact Option.some.inj (hg.symm.trans (hij ▸ hf))

/-! ## graphs by path -/

theorem pathOf_of_getElem? {k : Nat} {f : SourceFile} (h : c.files[k]? = some f) :
    c.pathOf k = some f.path := by
  rw [pathOf, h, Option.map_some]

theorem isFileOf_of_getElem? {k : Nat} {f : SourceFile} (h : c.files[k]? = some f) :
    c.isFileOf d k = decide (f ∈ d.files) := by
  rw [isFileOf, h, Option.any_some]

theorem pathGraph_eq (c : IncludeChart) :
    c.pathGraph = Graph.plain (c.files.map pathNode) c.pathPairs := by
  have hnodes : c.fileNodes.map (fun n => ⟨c.pathOf n.id, n.attributes⟩)
      = c.files.map pathNode := by
    rw [fileNodes, List.map_map, ← c.map_snd_numbered, List.map_map]
    refine List.map_congr_left fun p hp => ?_
    exact congrArg (GraphNode.mk · _) (pathOf_of_getElem? (mem_numbered.1 hp))
  rw [pathGraph, graph_eq, Graph.rename_plain, hnodes]
  rfl

theorem subgraph_eq (c d : IncludeChart) : c.subgraph d
    = Graph.plain ((c.files.filter fun f => f ∈ d.files).map pathNode) (c.subPairs d) := by
  have hnodes : (c.fileNodes.filter fun n => c.isFileOf d n.id).map
      (fun n => ⟨c.pathOf n.id, n.attributes⟩)
      = (c.files.filter fun f => f ∈ d.files).map pathNode := by
    rw [fileNodes, ← c.map_snd_numbered, List.filter_map, List.filter_map, List.map_map,
      List.map_map]
    have hkept : c.numbered.filter ((fun n => c.isFileOf d n.id) ∘ fun p =>
        GraphNode.mk p.1 (fileAttributes p.2))
        = c.numbered.filter ((fun f => decide (f ∈ d.files)) ∘ Prod.snd) :=
      List.filter_congr fun p hp => isFileOf_of_getElem? (mem_numbered.1 hp)
    rw [hkept]
    refine List.map_congr_left fun p hp => ?_
    exact congrArg (GraphNode.mk · _)
      (pathOf_of_getElem? (mem_numbered.1 (List.mem_of_mem_filter hp)))
  rw [subgraph, graph_eq, Graph.induced_plain, Graph.rename_plain, hnodes]
  rfl

section
variable (h : c.files.Nodup)
include h

theorem mem_subPairs {p : Option Path × Option Path} :
    p ∈ c.subPairs d ↔
      ∃ f g, f ∈ d.files ∧ g ∈ d.files ∧ f ∈ c.files ∧ c.Links f g ∧ p = pathPair f g := by
  rw [subPairs, List.mem_map]
  constructor
  · rintro ⟨⟨i, j⟩, hij, rfl⟩
    obtain ⟨hedge, hkept⟩ := List.mem_filter.1 hij
    obtain ⟨f, g, hf, hg, hlinks⟩ := (mem_edgePairs_iff_links h).1 (List.mem_eraseDups.1 hedge)
    rw [Bool.and_eq_true, isFileOf_of_getElem? hf, isFileOf_of_getElem? hg] at hkept
    refine ⟨f, g, of_decide_eq_true hkept.1, of_decide_eq_true hkept.2,
      List.mem_of_getElem? hf, hlinks, ?_⟩
    rw [Prod.map_apply, pathOf_of_getElem? hf, pathOf_of_getElem? hg]
    rfl
  · rintro ⟨f, g, hf, hg, hfc, hlinks, rfl⟩
    obtain ⟨i, hi⟩ := List.mem_iff_getElem?.1 hfc
    obtain ⟨j, hj⟩ := List.mem_iff_getElem?.1 hlinks.mem
    refine ⟨(i, j), List.mem_filter.2 ⟨List.mem_eraseDups.2 ?_, ?_⟩, ?_⟩
    · exact (mem_edgePairs_iff_links h).2 ⟨f, g, hi, hj, hlinks⟩
    · rw [isFileOf_of_getElem? hi, isFileOf_of_getElem? hj, decide_eq_true hf, decide_eq_true hg]
      rfl
    · rw [Prod.map_apply, pathOf_of_getElem? hi, pathOf_of_getElem? hj]
      rfl

/-- a chart keeps all of its own files -/
theorem subPairs_self : c.subPairs c = c.pathPairs := by
  rw [subPairs, pathPairs, List.filter_eq_self.2]
  rintro ⟨i, j⟩ hij
  obtain ⟨f, g, hf, hg, _⟩ := (mem_edgePairs_iff_links h).1 (List.mem_eraseDups.1 hij)
  rw [isFileOf_of_getElem? hf, isFileOf_of_getElem? hg,
    decide_eq_true (List.mem_of_getElem? hf), decide_eq_true (List.mem_of_getElem? hg)]
  rfl

theorem mem_pathPairs {p : Option Path × Option Path} :
    p ∈ c.pathPairs ↔ ∃ f g, f ∈ c.files ∧ c.Links f g ∧ p = pathPair f g := by
  rw [← subPairs_self h, mem_subPairs h]
  constructor
  · rintro ⟨f, g, hf, _, _, hlinks, rfl⟩
    exact ⟨f, g, hf, hlinks, rfl⟩
  · rintro ⟨f, g, hf, hlinks, rfl⟩
    exact ⟨f, g, hf, hlinks.mem, hf, hlinks, rfl⟩

end

theorem nodup_pathPairs (h : (c.files.map SourceFile.path).Nodup) : c.pathPairs.Nodup := by
  have hinj : ∀ {i k : Nat}, i < c.files.length → c.pathOf i = c.pathOf k → i = k := by
    intro i k hi hik
    refine (List.getElem?_inj (l := c.files.map SourceFile.path) ?_ h).1 ?_
    · rw [List.length_map]
      exact hi
    · rw [List.getElem?_map, List.getElem?_map]
      exact hik
  refine (nodup_eraseDups c.edgePairs).map_on ?_
  rintro ⟨i, j⟩ hij ⟨i', j'⟩ _ heq
  obtain ⟨hi, hj⟩ := Prod.mk.inj heq
  obtain ⟨_, f, hf, name, _, hname⟩ := mem_edgePairs.1 (List.mem_eraseDups.1 hij)
  exact Prod.ext (hinj (List.getElem?_eq_some_iff.1 hf).1 hi) (hinj (lt_length_of_resolve hname) hj)

theorem nodup_subPairs (h : (c.files.map SourceFile.path).Nodup) : (c.subPairs d).Nodup :=
  (List.filter_sublist.map _).nodup (nodup_pathPairs h)

/-! ## dropped files -/

section
variable {all kept : IncludeChart} {keep : SourceFile → Bool} {name : Text}

/-- the first file of the name is dropped, and another one takes its place -/
structure IsDiverted (all kept : IncludeChart) (name : Text) (g : SourceFile) : Prop where
  dropped : ∃ f ∈ all.files, all.target? name = some f ∧ f ∉ kept.files
  found : kept.target? name = some g

instance {g : SourceFile} : Decidable (IsDiverted all kept name g) :=
  decidable_of_iff ((∃ f ∈ all.files, all.target? name = some f ∧ f ∉ kept.files) ∧
    kept.target? name = some g) ⟨fun h => ⟨h.1, h.2⟩, fun h => ⟨h.1, h.2⟩⟩

theorem target?_of_mem (hfiles : kept.files = all.files.filter keep) {g : SourceFile}
    (h : all.target? name = some g) (hg : g ∈ kept.files) : kept.target? name = some g := by
  obtain ⟨hnamed, front, back, hsplit, hfront⟩ := List.find?_eq_some_iff_append.1 h
  have hkeep : keep g = true := (List.mem_filter.1 (hfiles ▸ hg)).2
  refine List.find?_eq_some_iff_append.2 ⟨hnamed, front.filter keep, back.filter keep, ?_,
    fun f hf => hfront f (List.mem_of_mem_filter hf)⟩
  rw [hfiles, hsplit, List.filter_append, List.filter_cons_of_pos hkeep]

theorem target?_or_isDiverted (hfiles : kept.files = all.files.filter keep) {g : SourceFile}
    (h : kept.target? name = some g) :
    all.target? name = some g ∨ IsDiverted all kept name g := by
  have hg : g ∈ all.files := List.mem_of_mem_filter (hfiles ▸ mem_of_target? h)
  obtain ⟨f, hf⟩ := Option.isSome_iff_exists.1 (List.find?_isSome.2 ⟨g, hg, List.find?_some h⟩)
  by_cases hkept : f ∈ kept.files
  · obtain rfl := Option.some.inj ((target?_of_mem hfiles hf hkept).symm.trans h)
    exact .inl hf
  · exact .inr ⟨⟨f, mem_of_target? hf, hf, hkept⟩, h⟩

theorem links_of_mem (hfiles : kept.files = all.files.filter keep) {f g : SourceFile}
    (h : all.Links f g) (hg : g ∈ kept.files) : kept.Links f g := by
  obtain ⟨hne, name, hname, htarget⟩ := h
  exact ⟨hne, name, hname, target?_of_mem hfiles htarget hg⟩

theorem filter_mem_files (hfiles : kept.files = all.files.filter keep) :
    (all.files.filter fun f => f ∈ kept.files) = kept.files := by
  rw [hfiles]
  refine List.filter_congr fun f hf => ?_
  rw [Bool.eq_iff_iff, decide_eq_true_eq, List.mem_filter, and_iff_right hf]

theorem subPairs_subset (hfiles : kept.files = all.files.filter keep) (hall : all.files.Nodup) :
    ∀ p ∈ all.subPairs kept, p ∈ kept.pathPairs := by
  intro p hp
  obtain ⟨f, g, hf, hg, _, hlinks, rfl⟩ := (mem_subPairs hall).1 hp
  have hkept : kept.files.Nodup := hfiles ▸ hall.filter keep
  exact (mem_pathPairs hkept).2 ⟨f, g, hf, links_of_mem hfiles hlinks hg, rfl⟩

/-- an edge between kept files was there before, or a name of it has been diverted -/
theorem mem_pathPairs_cases (hfiles : kept.files = all.files.filter keep)
    (hall : all.files.Nodup) {p : Option Path × Option Path} (hp : p ∈ kept.pathPairs) :
    p ∈ all.subPairs kept ∨ ∃ f ∈ kept.files, ∃ name ∈ includes f, ∃ g ∈ kept.files,
      IsDiverted all kept name g ∧ g ≠ f ∧ p = pathPair f g := by
  have hkept : kept.files.Nodup := hfiles ▸ hall.filter keep
  obtain ⟨f, g, hf, ⟨hne, name, hname, htarget⟩, rfl⟩ := (mem_pathPairs hkept).1 hp
  have hg := mem_of_target? htarget
  rcases target?_or_isDiverted hfiles htarget with hsame | hother
  · refine .inl ((mem_subPairs hall).2 ⟨f, g, hf, hg, ?_, ⟨hne, name, hname, hsame⟩, rfl⟩)
    exact List.mem_of_mem_filter (hfiles ▸ hf)
  · exact .inr ⟨f, hf, name, hname, g, hg, hother, hne, rfl⟩

theorem links_of_pathPair_mem (hfiles : kept.files = all.files.filter keep)
    (hpaths : (all.files.map SourceFile.path).Nodup) {f g : SourceFile} (hf : f ∈ kept.files)
    (hg : g ∈ kept.files) (h : pathPair f g ∈ all.subPairs kept) : all.Links f g := by
  obtain ⟨f', g', hf', hg', _, hlinks, heq⟩ := (mem_subPairs hpaths.of_map).1 h
  obtain ⟨hpf, hpg⟩ := Prod.mk.inj heq
  have hall : ∀ {f}, f ∈ kept.files → f ∈ all.files := fun hf =>
    List.mem_of_mem_filter (hfiles ▸ hf)
  rw [List.inj_on_of_nodup_map hpaths (hall hf) (hall hf') (Option.some.inj hpf),
    List.inj_on_of_nodup_map hpaths (hall hg) (hall hg') (Option.some.inj hpg)]
  exact hlinks

theorem subgraph_of_filter (hfiles : kept.files = all.files.filter keep) :
    all.subgraph kept = Graph.plain (kept.files.map pathNode) (all.subPairs kept) := by
  rw [subgraph_eq, filter_mem_files hfiles]

theorem nodup_paths_of_filter (hfiles : kept.files = all.files.filter keep)
    (hpaths : (all.files.map SourceFile.path).Nodup) : (kept.files.map SourceFile.path).Nodup := by
  rw [hfiles]
  exact (List.filter_sublist.map _).nodup hpaths

/-- no edge is new just if every diverted name leads where another name of the file led before -/
theorem isSame_subgraph_iff (hfiles : kept.files = all.files.filter keep)
    (hpaths : (all.files.map SourceFile.path).Nodup) :
    kept.pathGraph.IsSame (all.subgraph kept) ↔
      ∀ f ∈ kept.files, ∀ name ∈ includes f, ∀ g ∈ kept.files, IsDiverted all kept name g →
        g ≠ f → ∃ other ∈ includes f, all.target? other = some g := by
  have hkept := nodup_paths_of_filter hfiles hpaths
  rw [pathGraph_eq, subgraph_of_filter hfiles,
    Graph.isSame_plain_iff (nodup_pathPairs hkept) (nodup_subPairs hpaths)]
  constructor
  · intro hsame f hf name hname g hg hother hne
    have hpair : pathPair f g ∈ kept.pathPairs :=
      (mem_pathPairs hkept.of_map).2 ⟨f, g, hf, ⟨hne, name, hname, hother.found⟩, rfl⟩
    exact (links_of_pathPair_mem hfiles hpaths hf hg ((hsame _).1 hpair)).2
  · refine fun hnone p => ⟨fun hp => ?_, subPairs_subset hfiles hpaths.of_map p⟩
    rcases mem_pathPairs_cases hfiles hpaths.of_map hp with hold | hnew
    · exact hold
    · obtain ⟨f, hf, name, hname, g, hg, hother, hne, rfl⟩ := hnew
      have hlinks : all.Links f g := ⟨hne, hnone f hf name hname g hg hother hne⟩
      exact (mem_subPairs hpaths.of_map).2
        ⟨f, g, hf, hg, List.mem_of_mem_filter (hfiles ▸ hf), hlinks, rfl⟩

/-- the graph of the kept files has all that is left of the whole graph on them, and besides only
edges of diverted names -/
structure IsRestriction (all kept : IncludeChart) : Prop where
  nodes : kept.pathGraph.nodes = (all.subgraph kept).nodes
  retained : ∀ e ∈ (all.subgraph kept).edges, e ∈ kept.pathGraph.edges
  diverted : ∀ e ∈ kept.pathGraph.edges, e ∈ (all.subgraph kept).edges ∨
    ∃ f ∈ kept.files, ∃ name ∈ includes f, ∃ g ∈ kept.files,
      IsDiverted all kept name g ∧ g ≠ f ∧ e.ends = (some f.path, some g.path)
  same_iff : kept.pathGraph.IsSame (all.subgraph kept) ↔
    ∀ f ∈ kept.files, ∀ name ∈ includes f, ∀ g ∈ kept.files, IsDiverted all kept name g →
      g ≠ f → ∃ other ∈ includes f, all.target? other = some g

theorem isRestriction (hfiles : kept.files = all.files.filter keep)
    (hpaths : (all.files.map SourceFile.path).Nodup) : IsRestriction all kept where
  nodes := by
    rw [pathGraph_eq, subgraph_of_filter hfiles]
    rfl
  retained := by
    rw [pathGraph_eq, subgraph_of_filter hfiles]
    exact List.map_subset _ (subPairs_subset hfiles hpaths.of_map)
  diverted := by
    rw [pathGraph_eq, subgraph_of_filter hfiles]
    refine List.forall_mem_map.2 fun p hp => ?_
    exact (mem_pathPairs_cases hfiles hpaths.of_map hp).imp_left List.mem_map_of_mem
  same_iff := isSame_subgraph_iff hfiles hpaths

end

end IncludeChart

/-! ## chosen folders -/

theorem Workspace.files_includeChart_eq_filter (ws : Workspace) (root : Path)
    (ignored : List FileName) (chosen : List Text) :
    (ws.includeChart root ignored chosen).files
      = (ws.includeChart root ignored []).files.filter
          fun f => chosen.isEmpty || isInFolders f.folder chosen := by
  cases chosen with
  | nil => exact (List.filter_eq_self.2 fun _ _ => rfl).symm
  | cons folder more => rfl

theorem includeChart_isRestriction {ws : Workspace} {root : Path}
    (htree : (ws.tree root).isTree = true) (ignored : List FileName) (chosen : List Text) :
    (ws.includeChart root ignored chosen).files
        = (ws.includeChart root ignored []).files.filter
            (fun f => chosen.isEmpty || isInFolders f.folder chosen) ∧
      IncludeChart.IsRestriction (ws.includeChart root ignored [])
        (ws.includeChart root ignored chosen) :=
  ⟨ws.files_includeChart_eq_filter root ignored chosen,
    IncludeChart.isRestriction (ws.files_includeChart_eq_filter root ignored chosen)
      (Workspace.nodup_paths_includeChart htree ignored [])⟩

/-- two headers of one name, and a file with the given text beside the second one -/
def twoHeaders (text : String) : Workspace := .ofLocation (.dir [
  ("a".toList, .dir [("u.h".toList, .ofAscii "")]),
  ("b".toList, .dir [("m.c".toList, .ofAscii text), ("u.h".toList, .ofAscii "")])]) []

def chartOfHeaders (text : String) (chosen : List Text) : IncludeChart :=
  (twoHeaders text).includeChart Path.here standardIgnored chosen

/-- the name `u.h` is diverted, but another name in the file leads to the same header -/
theorem isRestriction_twoHeaders :
    ((twoHeaders "#include \"u.h\"\n#include \"b/u.h\"\n").tree Path.here).isTree = true ∧
      (chartOfHeaders "#include \"u.h\"\n#include \"b/u.h\"\n" ["b".toList]).pathGraph.IsSame
        ((chartOfHeaders "#include \"u.h\"\n#include \"b/u.h\"\n" []).subgraph
          (chartOfHeaders "#include \"u.h\"\n#include \"b/u.h\"\n" ["b".toList])) := by
  have htree : ((twoHeaders "#include \"u.h\"\n#include \"b/u.h\"\n").tree
      Path.here).isTree = true := by decide +kernel
  refine ⟨htree, (includeChart_isRestriction htree standardIgnored ["b".toList]).2.same_iff.2 ?_⟩
  simp only [Workspace.includeChart]
  rw [Workspace.sourceFiles_of_sorted (by decide +kernel)]
  decide +kernel

/-- without the first header the name `u.h` leads to the second one -/
theorem diverts_twoHeaders :
    ¬ (chartOfHeaders "#include \"u.h\"\n" ["b".toList]).pathGraph.IsSame
      ((chartOfHeaders "#include \"u.h\"\n" []).subgraph
        (chartOfHeaders "#include \"u.h\"\n" ["b".toList])) := by
  intro h
  have hcount := h.edges.length_eq
  simp only [chartOfHeaders, Workspace.includeChart] at hcount
  rw [Workspace.sourceFiles_of_sorted (by decide +kernel)] at hcount
  exact absurd hcount (by decide +kernel)

end CodeChart
