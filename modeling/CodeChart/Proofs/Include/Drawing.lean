import CodeChart.Proofs.Include.Chart
import CodeChart.Proofs.Include.Folder
import CodeChart.Proofs.Include.Restriction
import CodeChart.Proofs.Include.Sheet
import Mathlib.Data.List.Zip

/-!
# What is drawn of an include chart

Which files are shown, which subgraphs they stand in, which edges are drawn and what a click hands
over is worked out separately, and all of it agrees.

* `IncludeChart.Shows`      the files that are shown: with chosen folders all of them, without any
                            those that have an edge;
* `IncludeChart.ShowsFolders`, `Subgraph.Holds`   the folders in the order of their first files,
                            and what stands in the subgraph of one;
* `Sheet.Depicts`           what a sheet has to show of a chart; `IncludeChart.depicts_sheet`;
* `IncludeChart.mermaidLines_eq`   the lines of a chart are those of its sheet;
* `includeChart_drawn`      so the text of a chart can be read in one way, and shows the chart.
-/

namespace CodeChart

open Mermaid

theorem mapM_eq_some {α β : Type} {f : α → Option β} {g : α → β} {l : List α}
    (h : ∀ a ∈ l, f a = some (g a)) : l.mapM f = some (l.map g) := by
  induction l with
  | nil => rfl
  | cons a l ih =>
    obtain ⟨ha, hl⟩ := List.forall_mem_cons.1 h
    rw [List.mapM_cons, ha, ih hl]
    rfl

theorem fileId_injective : Function.Injective fileId := fun _ _ h =>
  decimal_injective (List.cons.inj h).2

theorem newline_not_mem_shortFolder {folder : Text} (h : '\n' ∉ folder) :
    '\n' ∉ shortFolder folder := by
  rw [shortFolder]
  cases hlast : (splitOn '/' folder).getLast? with
  | none => exact List.not_mem_nil
  | some row =>
    intro hrow
    exact h ((isInfix_of_mem_splitOn (List.mem_of_getLast? hlast)).subset hrow)

namespace IncludeChart

variable {c : IncludeChart}

/-! ## what is shown -/

/-- the file has the number `k`, and an edge if no folders are chosen -/
def Shows (c : IncludeChart) (k : Nat) (f : SourceFile) : Prop :=
  c.files[k]? = some f ∧
    (c.chosen = [] → ∃ ends ∈ c.graph.edges.map GraphEdge.ends, ends.1 = k ∨ ends.2 = k)

theorem mem_shownFiles {k : Nat} {f : SourceFile} : (k, f) ∈ c.shownFiles ↔ c.Shows k f := by
  have hconnected : c.graph.isConnected k = true ↔
      ∃ ends ∈ c.graph.edges.map GraphEdge.ends, ends.1 = k ∨ ends.2 = k := by
    simp only [Graph.isConnected, List.any_eq_true, decide_eq_true_eq, List.mem_map,
      exists_exists_and_eq_and, GraphEdge.ends]
  rw [shownFiles, List.mem_filter, mem_numbered, Shows, Bool.or_eq_true, hconnected, isFiltered,
    Bool.not_eq_true', List.isEmpty_eq_false_iff]
  exact and_congr_right fun _ => ⟨fun h hnone => h.resolve_left fun hne => hne hnone,
    fun h => or_iff_not_imp_left.2 fun hne => h (not_not.1 hne)⟩

theorem mem_map_shownFiles {β : Type} {g : Nat × SourceFile → β} {y : β} :
    y ∈ c.shownFiles.map g ↔ ∃ k f, c.Shows k f ∧ g (k, f) = y := by
  rw [List.mem_map, Prod.exists]
  exact exists_congr fun k => exists_congr fun f => and_congr_left' mem_shownFiles

theorem pairwise_shownFiles (c : IncludeChart) :
    c.shownFiles.Pairwise fun p q => p.1 < q.1 := by
  have hnumbered : c.numbered.Pairwise fun p q => p.1 < q.1 := by
    apply List.pairwise_map.1
    rw [map_fst_numbered]
    exact List.pairwise_lt_range
  exact hnumbered.sublist List.filter_sublist

theorem nodup_shownFiles (c : IncludeChart) : (c.shownFiles.map Prod.fst).Nodup :=
  List.pairwise_map.2 (c.pairwise_shownFiles.imp fun h => Nat.ne_of_lt h)

theorem ends_mem_ids {e : GraphEdge Nat} (h : e ∈ c.graph.edges) :
    e.source ∈ c.ids ∧ e.target ∈ c.ids := by
  have hpair : e.ends ∈ c.edgePairs := by
    rw [← List.mem_eraseDups, ← ends_graph]
    exact List.mem_map_of_mem h
  obtain ⟨_, f, hf, name, _, hname⟩ := mem_edgePairs.1 hpair
  exact ⟨mem_ids.2 (List.getElem?_eq_some_iff.1 hf).1, mem_ids.2 (lt_length_of_resolve hname)⟩

theorem mem_shownEdges {ends : Nat × Nat} (h : ends ∈ c.shownEdges) :
    ends.1 ∈ c.shownFiles.map Prod.fst ∧ ends.2 ∈ c.shownFiles.map Prod.fst := by
  have hboth := (List.mem_filter.1 h).2
  rwa [Bool.and_eq_true, List.contains_iff_mem, List.contains_iff_mem] at hboth

theorem shownEdges_perm (c : IncludeChart) :
    c.shownEdges.Perm (c.graph.edges.map GraphEdge.ends) := by
  have hperm : c.graph.orderedEdges.Perm c.graph.edges :=
    Graph.orderedEdges_perm (c.map_id_nodes ▸ List.nodup_range) fun e he =>
      c.map_id_nodes ▸ (ends_mem_ids he).1
  -- an edge shows its own ends
  have hshown : ∀ k ∈ c.ids, (∃ ends ∈ c.graph.edges.map GraphEdge.ends, ends.1 = k ∨ ends.2 = k) →
      k ∈ c.shownFiles.map Prod.fst := by
    intro k hk hedge
    have hf := List.getElem?_eq_getElem (mem_ids.1 hk)
    exact mem_map_shownFiles.2 ⟨k, _, ⟨hf, fun _ => hedge⟩, rfl⟩
  have hall : ∀ ends ∈ c.graph.orderedEdges.map GraphEdge.ends,
      ((c.shownFiles.map Prod.fst).contains ends.1 &&
        (c.shownFiles.map Prod.fst).contains ends.2) = true := by
    intro ends hmem
    have hmem' : ends ∈ c.graph.edges.map GraphEdge.ends := (hperm.map _).mem_iff.1 hmem
    obtain ⟨e, he, rfl⟩ := List.mem_map.1 hmem'
    rw [Bool.and_eq_true, List.contains_iff_mem, List.contains_iff_mem]
    obtain ⟨hsource, htarget⟩ := ends_mem_ids he
    exact ⟨hshown _ hsource ⟨_, hmem', .inl rfl⟩, hshown _ htarget ⟨_, hmem', .inr rfl⟩⟩
  have hfilter : c.shownEdges = c.graph.orderedEdges.map GraphEdge.ends :=
    List.filter_eq_self.2 hall
  rw [hfilter]
  exact hperm.map _

/-! ## the sheet of a chart -/

def shownFolders (c : IncludeChart) : List Text :=
  (c.shownFiles.map fun p => p.2.folder).eraseDups

def shownIn (c : IncludeChart) (folder : Text) : List (Nat × SourceFile) :=
  c.shownFiles.filter fun p => p.2.folder = folder

def subgraphOf (c : IncludeChart) (folder : Text) : Subgraph :=
  ⟨sanitize (shortFolder folder), (c.shownIn folder).map fun p => (p.1, sanitize p.2.path.name)⟩

def sheet (c : IncludeChart) (absolute : Path → Path) : Sheet :=
  ⟨c.shownFolders.map c.subgraphOf, c.shownEdges,
    c.shownFiles.map fun p => (p.1, (absolute p.2.path).text)⟩

theorem groups_eq (c : IncludeChart) : c.groups = c.shownFolders.map fun folder =>
    (folder, (c.shownIn folder).map Prod.fst) :=
  Assoc.foldl_push_eq (fun p : Nat × SourceFile => p.2.folder) Prod.fst c.shownFiles

theorem mem_shownIn {folder : Text} {k : Nat} {f : SourceFile} :
    (k, f) ∈ c.shownIn folder ↔ c.Shows k f ∧ f.folder = folder := by
  rw [shownIn, List.mem_filter, mem_shownFiles, decide_eq_true_eq]

theorem mem_shownFolders {folder : Text} :
    folder ∈ c.shownFolders ↔ ∃ k f, c.Shows k f ∧ f.folder = folder := by
  rw [shownFolders, List.mem_eraseDups, mem_map_shownFiles]

theorem shownIn_ne_nil {folder : Text} (h : folder ∈ c.shownFolders) : c.shownIn folder ≠ [] := by
  obtain ⟨k, f, hf⟩ := mem_shownFolders.1 h
  exact List.ne_nil_of_mem (mem_shownIn.2 hf)

theorem declared_sheet_perm (c : IncludeChart) (absolute : Path → Path) :
    (c.sheet absolute).declared.Perm (c.shownFiles.map Prod.fst) := by
  have hfolder : ∀ p ∈ c.shownFiles, p.2.folder ∈ c.shownFolders := fun p hp =>
    List.mem_eraseDups.2 (List.mem_map.2 ⟨p, hp, rfl⟩)
  have hdeclared : (c.sheet absolute).declared
      = (c.shownFolders.flatMap c.shownIn).map Prod.fst := by
    show (c.shownFolders.map c.subgraphOf).flatMap _ = _
    rw [List.flatMap_map, List.map_flatMap]
    refine List.flatMap_congr fun folder _ => ?_
    show ((c.shownIn folder).map _).map Prod.fst = _
    rw [List.map_map]
    rfl
  rw [hdeclared]
  exact (flatMap_filter_perm (nodup_eraseDups _) hfolder).map _

/-! ## the text of a chart -/

variable (c) (absolute : Path → Path) (direction : Text)

theorem lookup_names {k : Nat} {f : SourceFile} (h : c.Shows k f) :
    (c.drawing absolute direction).names.lookup (fileId k) = some f.path.name := by
  have hkeys : ((c.drawing absolute direction).names.map Prod.fst).Nodup := by
    show ((c.numbered.map fun p => (fileId p.1, p.2.path.name)).map Prod.fst).Nodup
    have hids : Prod.fst ∘ (fun p : Nat × SourceFile => (fileId p.1, p.2.path.name))
        = fileId ∘ Prod.fst := rfl
    rw [List.map_map, hids, ← List.map_map, map_fst_numbered]
    exact List.nodup_range.map fileId_injective
  exact lookup_of_nodup hkeys (List.mem_map.2 ⟨(k, f), mem_numbered.2 h.1, rfl⟩)

theorem groupLines_eq (folder : Text) (index : Nat) :
    groupLines (c.drawing absolute direction).names index
        (folder, ((c.shownIn folder).map Prod.fst).map fileId)
      = some (((c.subgraphOf folder).lines index).map ChartLine.text) := by
  have hfiles : (((c.shownIn folder).map Prod.fst).map fileId).mapM
        (fun id => ((c.drawing absolute direction).names.lookup id).map (fileLine id))
      = some ((c.shownIn folder).map fun p =>
        ChartLine.text (.file p.1 (sanitize p.2.path.name))) := by
    rw [List.map_map, List.mapM_map]
    refine mapM_eq_some fun p hp => ?_
    show ((c.drawing absolute direction).names.lookup (fileId p.1)).map _ = _
    rw [c.lookup_names absolute direction (mem_shownIn.1 hp).1, Option.map_some,
      ChartLine.text_file]
    rfl
  have hlines : ((c.subgraphOf folder).lines index).map ChartLine.text
      = groupLine index folder :: "direction TB;".toList ::
        (c.shownIn folder).map (fun p => ChartLine.text (.file p.1 (sanitize p.2.path.name)))
        ++ ["end".toList] := by
    rw [Subgraph.lines, List.map_cons, List.map_cons, List.map_append, ← ChartLine.text_subgraph]
    show _ :: _ :: (((c.shownIn folder).map _).map _).map _ ++ _ = _
    rw [List.map_map, List.map_map]
    rfl
  rw [groupLines, hfiles, hlines]
  rfl

theorem IncludeDrawing.numberedGroups_eq {d : IncludeDrawing} (h : ∀ g ∈ d.groups, g.2 ≠ []) :
    d.numberedGroups = d.groups.zipIdx.map Prod.swap := by
  have hshown : (d.groups.filter fun g => !g.2.isEmpty) = d.groups := by
    refine List.filter_eq_self.2 fun g hg => ?_
    rw [Bool.not_eq_true', List.isEmpty_eq_false_iff]
    exact h g hg
  rw [IncludeDrawing.numberedGroups, hshown, List.zipIdx_eq_zip_range', List.zip_swap,
    List.range_eq_range']

theorem groups_drawing : (c.drawing absolute direction).groups = c.shownFolders.map fun folder =>
    (folder, ((c.shownIn folder).map Prod.fst).map fileId) := by
  show c.groups.map _ = _
  rw [groups_eq, List.map_map]
  rfl

theorem mermaidLines_eq : (c.drawing absolute direction).mermaidLines
    = some (graphLine direction :: includeClasses
        ++ (c.sheet absolute).lines.map ChartLine.text) := by
  have hnonempty : ∀ g ∈ (c.drawing absolute direction).groups, g.2 ≠ [] := by
    rw [groups_drawing]
    refine List.forall_mem_map.2 fun folder hfolder => ?_
    rw [Ne, List.map_eq_nil_iff, List.map_eq_nil_iff]
    exact shownIn_ne_nil hfolder
  have hgroups : (c.drawing absolute direction).numberedGroups.mapM
        (fun g => groupLines (c.drawing absolute direction).names g.1 g.2)
      = some (c.shownFolders.zipIdx.map fun p =>
        ((c.subgraphOf p.1).lines p.2).map ChartLine.text) := by
    rw [IncludeDrawing.numberedGroups_eq hnonempty, groups_drawing, List.zipIdx_map, List.map_map,
      List.mapM_map]
    exact mapM_eq_some fun p _ => c.groupLines_eq absolute direction p.1 p.2
  have hsubgraphs : ((c.sheet absolute).subgraphs.zipIdx.flatMap fun p =>
        p.1.lines p.2).map ChartLine.text
      = (c.shownFolders.zipIdx.map fun p =>
          ((c.subgraphOf p.1).lines p.2).map ChartLine.text).flatten := by
    show ((c.shownFolders.map c.subgraphOf).zipIdx.flatMap _).map _ = _
    rw [List.zipIdx_map, List.flatMap_map, List.map_flatMap]
    rfl
  have hlinks : (c.sheet absolute).links.map ChartLine.text
      = (c.drawing absolute direction).edges.map (fun e => arrowLine e.1 e.2)
        ++ (c.drawing absolute direction).clicks.map (fun e => clickLine e.1 e.2) := by
    rw [Sheet.links, List.map_append, List.map_map, List.map_map]
    show _ = (c.shownEdges.map _).map _ ++ (c.shownFiles.map _).map _
    rw [List.map_map, List.map_map]
    refine congrArg₂ _ (List.map_congr_left fun e _ => ChartLine.text_edge e.1 e.2) ?_
    show (c.shownFiles.map _).map _ = _
    rw [List.map_map]
    exact List.map_congr_left fun p _ => ChartLine.text_click p.1 (absolute p.2.path).text
  rw [IncludeDrawing.mermaidLines, hgroups, Sheet.lines, List.map_append, hsubgraphs, hlinks]
  show some (graphLine direction :: includeClasses ++ _ ++ _ ++ _) = _
  rw [List.append_assoc, List.append_assoc]

end IncludeChart

/-! ## what a sheet has to show -/

/-- the folders with shown files, each once, in the order of their first shown files -/
structure IncludeChart.ShowsFolders (c : IncludeChart) (root : Path) (folders : List Text) :
    Prop where
  mem_iff : ∀ t, t ∈ folders ↔ ∃ k f, c.Shows k f ∧ folderOf? f.path root = some t
  once : folders.Nodup
  ordered : folders.Pairwise fun t u => ∃ k f, c.Shows k f ∧ folderOf? f.path root = some t ∧
    ∀ l g, c.Shows l g → folderOf? g.path root = some u → k < l

/-- the subgraph of a folder declares its shown files, each once, in the order of their numbers -/
structure Subgraph.Holds (g : Subgraph) (c : IncludeChart) (root : Path) (folder : Text) :
    Prop where
  label : g.label = sanitize (shortFolder folder)
  nonempty : g.files ≠ []
  ascending : (g.files.map Prod.fst).Pairwise fun k l => k < l
  mem_iff : ∀ k name, (k, name) ∈ g.files ↔
    ∃ f, c.Shows k f ∧ folderOf? f.path root = some folder ∧ name = sanitize f.path.name

/-- with the path that a click on a file hands over -/
structure Sheet.Depicts (s : Sheet) (c : IncludeChart) (root : Path) (absolute : Path → Path) :
    Prop where
  subgraphs : ∃ folders, c.ShowsFolders root folders ∧
    List.Forall₂ (fun folder g => g.Holds c root folder) folders s.subgraphs
  once : s.declared.Nodup
  declares : ∀ k, k ∈ s.declared ↔ ∃ f, c.Shows k f
  edges : s.edges.Perm (c.graph.edges.map GraphEdge.ends) ∧ s.edges.Nodup
  ends : ∀ e ∈ s.edges, e.1 ∈ s.declared ∧ e.2 ∈ s.declared
  ascending : (s.clicks.map Prod.fst).Pairwise fun k l => k < l
  clicks : ∀ k payload, (k, payload) ∈ s.clicks ↔
    ∃ f, c.Shows k f ∧ payload = (absolute f.path).text

namespace IncludeChart

variable {c : IncludeChart} {root : Path}

section
variable (hfolders : ∀ f ∈ c.files, folderOf? f.path root = some f.folder)
include hfolders

theorem Shows.folderOf?_eq {k : Nat} {f : SourceFile} (h : c.Shows k f) {folder : Text} :
    folderOf? f.path root = some folder ↔ f.folder = folder := by
  rw [hfolders f (List.mem_of_getElem? h.1), Option.some.injEq]

theorem showsFolders : c.ShowsFolders root c.shownFolders where
  mem_iff t := by
    rw [mem_shownFolders]
    exact exists_congr fun k => exists_congr fun f =>
      and_congr_right fun h => (h.folderOf?_eq hfolders).symm
  once := nodup_eraseDups _
  ordered := by
    have hfirst : c.shownFolders.Pairwise fun t u => ∃ p ∈ c.shownFiles, p.2.folder = t ∧
        ∀ q ∈ c.shownFiles, q.2.folder = u → p.1 < q.1 :=
      pairwise_eraseDups_map c.pairwise_shownFiles
    refine hfirst.imp fun {t u} h => ?_
    obtain ⟨⟨k, f⟩, hf, hft, hlater⟩ := h
    have hshows := mem_shownFiles.1 hf
    refine ⟨k, f, hshows, (hshows.folderOf?_eq hfolders).2 hft, fun l g hg hgu => ?_⟩
    exact hlater (l, g) (mem_shownFiles.2 hg) ((hg.folderOf?_eq hfolders).1 hgu)

theorem holds_subgraphOf {folder : Text} (h : folder ∈ c.shownFolders) :
    (c.subgraphOf folder).Holds c root folder where
  label := rfl
  nonempty := by
    show (c.shownIn folder).map _ ≠ []
    rw [Ne, List.map_eq_nil_iff]
    exact shownIn_ne_nil h
  ascending := by
    show (((c.shownIn folder).map _).map Prod.fst).Pairwise _
    rw [List.map_map]
    exact List.pairwise_map.2 (c.pairwise_shownFiles.sublist List.filter_sublist)
  mem_iff k name := by
    show (k, name) ∈ (c.shownIn folder).map _ ↔ _
    rw [List.mem_map]
    constructor
    · intro hmem
      obtain ⟨⟨l, f⟩, hf, heq⟩ := hmem
      obtain ⟨rfl, rfl⟩ := Prod.mk.inj heq
      obtain ⟨hshows, hfolder⟩ := mem_shownIn.1 hf
      exact ⟨f, hshows, (hshows.folderOf?_eq hfolders).2 hfolder, rfl⟩
    · intro hshown
      obtain ⟨f, hshows, hfolder, rfl⟩ := hshown
      exact ⟨(k, f), mem_shownIn.2 ⟨hshows, (hshows.folderOf?_eq hfolders).1 hfolder⟩, rfl⟩

/-- the four ways in which the shown files are gone through agree -/
theorem depicts_sheet (absolute : Path → Path) : (c.sheet absolute).Depicts c root absolute where
  subgraphs := by
    refine ⟨c.shownFolders, showsFolders hfolders, ?_⟩
    show List.Forall₂ _ c.shownFolders (c.shownFolders.map c.subgraphOf)
    rw [List.forall₂_map_right_iff, List.forall₂_same]
    exact fun folder h => holds_subgraphOf hfolders h
  once := (c.declared_sheet_perm absolute).nodup_iff.2 c.nodup_shownFiles
  declares k := by
    rw [(c.declared_sheet_perm absolute).mem_iff, mem_map_shownFiles]
    constructor
    · intro h
      obtain ⟨_, f, hf, rfl⟩ := h
      exact ⟨f, hf⟩
    · intro h
      obtain ⟨f, hf⟩ := h
      exact ⟨k, f, hf, rfl⟩
  edges := by
    have hnodup : (c.graph.edges.map GraphEdge.ends).Nodup := by
      rw [ends_graph]
      exact nodup_eraseDups _
    exact ⟨c.shownEdges_perm, c.shownEdges_perm.nodup_iff.2 hnodup⟩
  ends e he := by
    have hdeclared := c.declared_sheet_perm absolute
    obtain ⟨hsource, htarget⟩ := mem_shownEdges he
    exact ⟨hdeclared.mem_iff.2 hsource, hdeclared.mem_iff.2 htarget⟩
  ascending := by
    show ((c.shownFiles.map _).map Prod.fst).Pairwise _
    rw [List.map_map]
    exact List.pairwise_map.2 c.pairwise_shownFiles
  clicks k payload := by
    show (k, payload) ∈ c.shownFiles.map _ ↔ _
    rw [mem_map_shownFiles]
    constructor
    · intro hclick
      obtain ⟨_, f, hf, heq⟩ := hclick
      obtain ⟨rfl, rfl⟩ := Prod.mk.inj heq
      exact ⟨f, hf, rfl⟩
    · intro hshown
      obtain ⟨f, hf, rfl⟩ := hshown
      exact ⟨k, f, hf, rfl⟩

end

theorem newline_not_mem_lines {absolute : Path → Path}
    (h : ∀ f ∈ c.files, '\n' ∉ f.path.name ∧ '\n' ∉ f.folder ∧ '\n' ∉ (absolute f.path).text) :
    ∀ l ∈ (c.sheet absolute).lines, '\n' ∉ l.embedded := by
  have hshown : ∀ {k : Nat} {f : SourceFile}, c.Shows k f → f ∈ c.files := fun hf =>
    List.mem_of_getElem? hf.1
  intro l hl
  rcases Sheet.embedded_of_mem_lines hl with hnone | ⟨g, hg, hlabel⟩ | hclick
  · rw [hnone]
    exact List.not_mem_nil
  · obtain ⟨folder, hfolder, rfl⟩ := List.mem_map.1 hg
    rcases hlabel with hlabel | hfile
    · obtain ⟨k, f, hf, rfl⟩ := mem_shownFolders.1 hfolder
      rw [hlabel]
      exact newline_not_mem_sanitize (newline_not_mem_shortFolder (h f (hshown hf)).2.1)
    · obtain ⟨_, hentry, heq⟩ := List.mem_map.1 hfile
      obtain ⟨⟨k, f⟩, hf, rfl⟩ := List.mem_map.1 hentry
      rw [← heq]
      exact newline_not_mem_sanitize (h f (hshown (mem_shownIn.1 hf).1)).1
  · obtain ⟨_, hentry, heq⟩ := List.mem_map.1 hclick
    obtain ⟨k, f, hf, rfl⟩ := mem_map_shownFiles.1 hentry
    rw [← heq]
    exact (h f (hshown hf)).2.2

end IncludeChart

/-! ## the text of an include chart -/

theorem newline_not_mem_includeClasses : ∀ l ∈ includeClasses, '\n' ∉ l := by
  decide +kernel

/-- the lines behind the first one, which gives the direction, can be read in one way -/
theorem includeChart_drawn {ws : Workspace} {root : Path} {ignored : List FileName}
    {chosen : List Text} {absolute : Path → Path}
    (h : ∀ f ∈ (ws.includeChart root ignored chosen).files,
      '\n' ∉ f.path.name ∧ '\n' ∉ f.folder ∧ '\n' ∉ (absolute f.path).text) (direction : Text) :
    ∃ body sheet,
      ((ws.includeChart root ignored chosen).drawing absolute direction).toMermaid
        = some (graphLine direction ++ '\n' :: body) ∧
      splitOn '\n' body = includeClasses ++ sheet.lines.map ChartLine.text ++ [[]] ∧
      sheet.Depicts (ws.includeChart root ignored chosen) root absolute ∧
      ∀ other : Sheet,
        splitOn '\n' body = includeClasses ++ other.lines.map ChartLine.text ++ [[]] →
        other = sheet := by
  have hfolders : ∀ f ∈ (ws.includeChart root ignored chosen).files,
      folderOf? f.path root = some f.folder := by
    intro f hf
    rw [ws.files_includeChart_eq_filter root ignored chosen] at hf
    exact folderOf?_of_mem_sourceFiles (List.mem_filter.1 hf).1
  generalize ws.includeChart root ignored chosen = c at h hfolders ⊢
  have hlines : ∀ l ∈ includeClasses ++ (c.sheet absolute).lines.map ChartLine.text,
      '\n' ∉ l := by
    refine List.forall_mem_append.2 ⟨newline_not_mem_includeClasses, List.forall_mem_map.2 ?_⟩
    intro l hl
    exact ChartLine.newline_not_mem_text (IncludeChart.newline_not_mem_lines h l hl)
  have hsplit := splitOn_unlines hlines
  refine ⟨unlines (includeClasses ++ (c.sheet absolute).lines.map ChartLine.text),
    c.sheet absolute, ?_, hsplit, IncludeChart.depicts_sheet hfolders absolute, ?_⟩
  · rw [IncludeDrawing.toMermaid, c.mermaidLines_eq, Option.map_some, List.cons_append,
      unlines_cons]
  · intro other hother
    rw [hsplit] at hother
    have hsame := List.append_cancel_left (List.append_cancel_right hother)
    exact (Sheet.lines_injective (List.map_injective_iff.2 ChartLine.text_injective hsame)).symm

/-- a directory comes between two files of the folder above it, and the last file stands alone -/
def nestedHeaders : Workspace := .ofLocation (.dir [
  ("lib".toList, .dir [
    ("a.c".toList, .ofAscii "#include \"z.h\"\n#include \"core/m.h\"\n"),
    ("core".toList, .dir [("m.h".toList, .ofAscii "")]),
    ("z.h".toList, .ofAscii "#include \"core/m.h\"\n")]),
  ("solo.c".toList, .ofAscii "")]) []

def nestedChart : IncludeChart := nestedHeaders.includeChart Path.here standardIgnored []

def nestedSheet : Sheet where
  subgraphs := [⟨"lib".toList, [(0, "a.c".toList), (2, "z.h".toList)]⟩,
    ⟨"core".toList, [(1, "m.h".toList)]⟩]
  edges := [(0, 2), (0, 1), (2, 1)]
  clicks := [(0, "/lib/a.c".toList), (1, "/lib/core/m.h".toList), (2, "/lib/z.h".toList)]

theorem depicts_nestedSheet :
    (∀ f ∈ nestedChart.files, '\n' ∉ f.path.name ∧ '\n' ∉ f.folder ∧
      '\n' ∉ (nestedHeaders.absolute f.path).text) ∧
    nestedSheet.Depicts nestedChart Path.here nestedHeaders.absolute := by
  have hchart : nestedChart
      = .ofFiles ((nestedHeaders.tree Path.here).sourceFiles Path.here standardIgnored) [] := by
    rw [nestedChart, Workspace.includeChart, Workspace.sourceFiles_of_sorted (by decide +kernel)]
  have hlines : ∀ f ∈ nestedChart.files, '\n' ∉ f.path.name ∧ '\n' ∉ f.folder ∧
      '\n' ∉ (nestedHeaders.absolute f.path).text := by
    rw [hchart]
    decide +kernel
  obtain ⟨body, sheet, htext, _, hdepicts, hunique⟩ := includeChart_drawn hlines includeDirection
  have hbody : some (graphLine includeDirection :: splitOn '\n' body)
      = some (graphLine includeDirection ::
        (includeClasses ++ nestedSheet.lines.map ChartLine.text ++ [[]])) := by
    rw [← List.splitOn_append_cons_self_of_not_mem (by decide), ← Option.map_some, ← htext]
    show (nestedChart.drawing _ _).toMermaid.map (splitOn '\n') = _
    rw [hchart]
    decide +kernel
  obtain rfl := hunique nestedSheet (List.cons.inj (Option.some.inj hbody)).2
  exact ⟨hlines, hdepicts⟩

end CodeChart
