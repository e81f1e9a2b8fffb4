import CodeChart.Include.Chart
import CodeChart.Proofs.File.Component
import CodeChart.Proofs.File.Leaves
import CodeChart.Proofs.Text.Order

/-!
# Include charts of trees

The files of a chart come from the tree below its root.  Which of them there are, and in which
order, is a matter of the tree alone; the root only comes in front of their paths.

* `Workspace.tree`      what lies below a root;
* `Entry.sourceLeaves`  the leaves of a tree that are source files, in the order of their places;
* `Entry.keptLeaves`    those among them that a choice of folders keeps;
                        `Workspace.files_includeChart` says that they are the files of the chart;
* `Entry.keptLeaves_emptied`   empty files in place of others change no place;
* `Entry.keptLeaves_congr`     two trees with the same leaves have the same kept leaves, in the same
                        order.
-/

namespace CodeChart

/-! ## the tree below a root -/

/-- a root that is missing has nothing below it -/
def Workspace.tree (ws : Workspace) (root : Path) : Entry :=
  match ws.find root.text with
  | .ok p => p.entry
  | .error _ => Entry.emptyDir

theorem Workspace.sourceFiles_eq (ws : Workspace) (root : Path) (ignored : List FileName) :
    ws.sourceFiles root ignored = ((ws.tree root).sourceFiles root ignored).mergeSort pathLe := by
  rw [Workspace.sourceFiles, Workspace.tree]
  cases ws.find root.text with
  | ok p => rfl
  | error e => exact List.mergeSort_nil.symm

theorem Workspace.tree_here {e : Entry} (h : e.isDir = true) :
    (Workspace.ofLocation e []).tree Path.here = e := by
  cases e with
  | file octets => cases h
  | special => cases h
  | dir entries => rfl

namespace Entry

/-- a file with a text of ASCII characters -/
def ofAscii (t : String) : Entry := .file (t.toList.map fun c => c.toNat.toUInt8)

/-! ## source files -/

def placeText (leaf : List FileName × Entry) : Text := List.intercalate ['/'] leaf.1

def placeLe (a b : List FileName × Entry) : Bool := textLe (placeText a) (placeText b)

def isSourceLeaf (leaf : List FileName × Entry) : Bool := isSourceName (leaf.1.getLast?.getD [])

def sourceLeaves (ignored : List FileName) (e : Entry) : List (List FileName × Entry) :=
  ((e.leaves fun name => !ignored.contains name).filter isSourceLeaf).mergeSort placeLe

theorem leaf_place_ne_nil {entered : FileName → Bool} {e : Entry} :
    ∀ leaf ∈ e.leaves entered, leaf.1 ≠ [] := by
  rw [leaves_eq_leavesOf]
  exact place_ne_nil

/-- below one root, paths are in the order of the places -/
theorem mergeSort_sourceFiles (root : Path) (ignored : List FileName) (e : Entry) :
    (e.sourceFiles root ignored).mergeSort pathLe
      = (e.sourceLeaves ignored).map (SourceFile.ofLeaf root) := by
  obtain ⟨front, hfront⟩ := root.exists_text_append
  have htext : ∀ leaf ∈ (e.leaves fun name => !ignored.contains name).filter isSourceLeaf,
      (SourceFile.ofLeaf root leaf).path.text = front ++ placeText leaf := fun leaf hleaf =>
    hfront leaf.1 (leaf_place_ne_nil leaf (List.mem_of_mem_filter hleaf))
  refine (List.map_mergeSort fun a ha b hb => ?_).symm
  rw [placeLe, pathLe, htext a ha, htext b hb, textLe_append]

theorem placeLe_total (a b : List FileName × Entry) : (placeLe a b || placeLe b a) = true :=
  textLe_total _ _

theorem placeLe_trans (a b c : List FileName × Entry) (hab : placeLe a b = true)
    (hbc : placeLe b c = true) : placeLe a c = true :=
  textLe_trans _ _ _ hab hbc

theorem pairwise_sourceLeaves (ignored : List FileName) (e : Entry) :
    (e.sourceLeaves ignored).Pairwise fun a b => placeLe a b = true :=
  List.pairwise_mergeSort placeLe_trans placeLe_total _

/-! ## folders -/

def isKept (chosen : List Text) (leaf : List FileName × Entry) : Bool :=
  chosen.isEmpty || isInFolders (folderName leaf.1.dropLast) chosen

def keptLeaves (ignored : List FileName) (chosen : List Text) (e : Entry) :
    List (List FileName × Entry) :=
  (e.sourceLeaves ignored).filter (isKept chosen)

/-- a source file in no ignored directory -/
structure IsFound (e : Entry) (ignored : List FileName) (leaf : List FileName × Entry) :
    Prop where
  below : leaf ∈ e.allLeaves
  reached : ∀ name ∈ leaf.1.dropLast, name ∉ ignored
  source : isSourceLeaf leaf = true

theorem mem_sourceLeaves {ignored : List FileName} {e : Entry} {leaf : List FileName × Entry} :
    leaf ∈ e.sourceLeaves ignored ↔ e.IsFound ignored leaf := by
  rw [sourceLeaves, List.mem_mergeSort, List.mem_filter, leaves_eq_filter, List.mem_filter,
    isReached, List.all_eq_true]
  constructor
  · rintro ⟨⟨hleaf, hreached⟩, hsource⟩
    exact ⟨hleaf, fun name hname => by simpa using hreached name hname, hsource⟩
  · rintro ⟨hleaf, hreached, hsource⟩
    exact ⟨⟨hleaf, fun name hname => by simpa using hreached name hname⟩, hsource⟩

theorem place_ne_nil_of_mem_keptLeaves {ignored : List FileName} {chosen : List Text} {e : Entry}
    {leaf : List FileName × Entry} (h : leaf ∈ e.keptLeaves ignored chosen) : leaf.1 ≠ [] :=
  leaf_place_ne_nil leaf (mem_sourceLeaves.1 (List.mem_of_mem_filter h)).below

end Entry

theorem Workspace.files_includeChart (ws : Workspace) (root : Path) (ignored : List FileName)
    (chosen : List Text) : (ws.includeChart root ignored chosen).files
      = ((ws.tree root).keptLeaves ignored chosen).map (SourceFile.ofLeaf root) := by
  rw [includeChart, IncludeChart.ofFiles, sourceFiles_eq, Entry.mergeSort_sourceFiles,
    Entry.keptLeaves]
  cases chosen with
  | nil => exact congrArg _ (List.filter_eq_self.2 fun leaf _ => rfl).symm
  | cons folder more =>
    rw [if_neg (List.cons_ne_nil folder more), List.filter_map]
    rfl

theorem Workspace.mem_files_includeChart {ws : Workspace} {root : Path} {ignored : List FileName}
    {chosen : List Text} {f : SourceFile} :
    f ∈ (ws.includeChart root ignored chosen).files ↔ ∃ leaf,
      (ws.tree root).IsFound ignored leaf ∧ Entry.isKept chosen leaf = true ∧
        f = SourceFile.ofLeaf root leaf := by
  simp only [files_includeChart, List.mem_map, Entry.keptLeaves, List.mem_filter,
    Entry.mem_sourceLeaves, and_assoc, eq_comm]

theorem pathLe_total (f g : SourceFile) : (pathLe f g || pathLe g f) = true := textLe_total _ _

theorem pathLe_trans (f g h : SourceFile) (hfg : pathLe f g = true) (hgh : pathLe g h = true) :
    pathLe f h = true :=
  textLe_trans _ _ _ hfg hgh

/-- nothing is sorted where the files are listed in the order of their paths -/
theorem Workspace.sourceFiles_of_sorted {ws : Workspace} {root : Path} {ignored : List FileName}
    (h : ((ws.tree root).sourceFiles root ignored).Pairwise fun f g => pathLe f g = true) :
    ws.sourceFiles root ignored = (ws.tree root).sourceFiles root ignored := by
  rw [sourceFiles_eq, List.mergeSort_of_pairwise h]

theorem Workspace.pairwise_files_includeChart (ws : Workspace) (root : Path)
    (ignored : List FileName) (chosen : List Text) :
    (ws.includeChart root ignored chosen).files.Pairwise fun f g => pathLe f g = true := by
  have hsorted : (ws.sourceFiles root ignored).Pairwise fun f g => pathLe f g = true := by
    rw [sourceFiles_eq]
    exact List.pairwise_mergeSort pathLe_trans pathLe_total _
  rw [includeChart, IncludeChart.ofFiles]
  split
  · exact hsorted
  · exact hsorted.filter _

namespace Entry

/-! ## trees with the same leaves -/

section
variable (ignored : List FileName) (chosen : List Text)

theorem keptLeaves_emptied (which : List FileName → Bool) (e : Entry) :
    (e.emptied which).keptLeaves ignored chosen
      = (e.keptLeaves ignored chosen).map (emptiedLeaf which) := by
  have hsource : (e.emptied which).sourceLeaves ignored
      = (e.sourceLeaves ignored).map (emptiedLeaf which) := by
    rw [sourceLeaves, leaves_emptied, List.filter_map]
    exact (List.map_mergeSort (f := emptiedLeaf which) fun a _ b _ => rfl).symm
  rw [keptLeaves, hsource, List.filter_map]
  rfl

theorem components_placeText {e : Entry} (he : e.isTree = true) {leaf : List FileName × Entry}
    (h : leaf ∈ e.allLeaves) : components (placeText leaf) = leaf.1 :=
  components_intercalate_of_not_mem (leaf_place_ne_nil leaf h) fun name hname =>
    (isFileName_place he leaf h name hname).2

/-- a leaf of a tree is known by the text of its place -/
theorem leaf_eq_of_placeText {e : Entry} (he : e.isTree = true) {a b : List FileName × Entry}
    (ha : a ∈ e.allLeaves) (hb : b ∈ e.allLeaves) (h : placeText a = placeText b) : a = b := by
  have hplace : a.1 = b.1 := by
    rw [← components_placeText he ha, h, components_placeText he hb]
  exact List.inj_on_of_nodup_map (nodup_places he) ha hb hplace

theorem nodup_places_sourceLeaves {e : Entry} (he : e.isTree = true) :
    ((e.sourceLeaves ignored).map Prod.fst).Nodup := by
  have hfound : (((e.leaves fun name => !ignored.contains name).filter isSourceLeaf).map
      Prod.fst).Nodup := (List.filter_sublist.map _).nodup (nodup_places he)
  exact ((List.mergeSort_perm _ _).map Prod.fst).nodup_iff.2 hfound

theorem nodup_places_keptLeaves {e : Entry} (he : e.isTree = true) :
    ((e.keptLeaves ignored chosen).map Prod.fst).Nodup :=
  (List.filter_sublist.map _).nodup (nodup_places_sourceLeaves ignored he)

theorem sourceLeaves_congr {e e' : Entry} (he : e.isTree = true)
    (h : e.allLeaves.Perm e'.allLeaves) : e.sourceLeaves ignored = e'.sourceLeaves ignored := by
  have hfound : ((e.leaves fun name => !ignored.contains name).filter isSourceLeaf).Perm
      ((e'.leaves fun name => !ignored.contains name).filter isSourceLeaf) := by
    rw [leaves_eq_filter, leaves_eq_filter]
    exact (h.filter _).filter _
  have hperm : (e.sourceLeaves ignored).Perm (e'.sourceLeaves ignored) :=
    ((List.mergeSort_perm _ _).trans hfound).trans (List.mergeSort_perm _ _).symm
  have hall : ∀ leaf ∈ e.sourceLeaves ignored, leaf ∈ e.allLeaves := fun leaf hleaf =>
    (mem_sourceLeaves.1 hleaf).below
  refine hperm.eq_of_pairwise (fun a b ha hb hab hba => ?_)
    (pairwise_sourceLeaves ignored e) (pairwise_sourceLeaves ignored e')
  exact leaf_eq_of_placeText he (hall a ha) (hall b (hperm.mem_iff.2 hb))
    (textLe_antisymm _ _ hab hba)

theorem keptLeaves_congr {e e' : Entry} (he : e.isTree = true)
    (h : e.allLeaves.Perm e'.allLeaves) :
    e.keptLeaves ignored chosen = e'.keptLeaves ignored chosen := by
  rw [keptLeaves, keptLeaves, sourceLeaves_congr ignored he h]

end

end Entry

theorem Workspace.nodup_paths_includeChart {ws : Workspace} {root : Path}
    (htree : (ws.tree root).isTree = true) (ignored : List FileName) (chosen : List Text) :
    ((ws.includeChart root ignored chosen).files.map SourceFile.path).Nodup := by
  have happend : Function.Injective root.append := fun a b h =>
    List.append_cancel_left (congrArg Path.parts h)
  have hpath : SourceFile.path ∘ SourceFile.ofLeaf root = root.append ∘ Prod.fst := rfl
  rw [files_includeChart, List.map_map, hpath, ← List.map_map]
  exact (Entry.nodup_places_keptLeaves ignored chosen htree).map happend

end CodeChart
