import CodeChart.Proofs.Include.Tree
import Mathlib.Data.List.DropRight

/-!
# The folders that are kept

A chart with chosen folders keeps the files in them and below them.  A folder can be chosen with
slashes behind its name; what lies below it is then kept, but a folder is compared with the name as
it was given, slashes and all.

* `LiesBelow`           a folder below another one, component by component;
* `isInFolders_iff`     which folders are taken for chosen;
* `IsRequested`         the folder is chosen or lies below a chosen one, whatever slashes stand
                        behind its name;
* `keepsRequested_iff`  the files of a chart are those in requested folders, unless a folder with
                        files in it is chosen with slashes behind its name only.
-/

namespace CodeChart

/-! ## folders below folders -/

def LiesBelow (folder upper : Text) : Prop :=
  components upper <+: components folder ∧ components upper ≠ components folder

instance (folder upper : Text) : Decidable (LiesBelow folder upper) :=
  inferInstanceAs (Decidable (_ ∧ _))

theorem isInFolder_iff {folder a : Text} :
    isInFolder folder a = true ↔ folder = a ∨ LiesBelow folder (trimSlashes a) := by
  rw [isInFolder, LiesBelow, components_prefix_iff, Bool.or_eq_true, beq_iff_eq,
    List.isPrefixOf_iff_prefix]

theorem isInFolders_iff {folder : Text} {chosen : List Text} :
    isInFolders folder chosen = true ↔
      ∃ a ∈ chosen, folder = a ∨ LiesBelow folder (trimSlashes a) := by
  simp only [isInFolders, List.any_eq_true, isInFolder_iff]

/-! ## folders that are asked for -/

def IsRequested (folder : Text) (chosen : List Text) : Prop :=
  ∃ a ∈ chosen, folder = trimSlashes a ∨ LiesBelow folder (trimSlashes a)

instance (folder : Text) (chosen : List Text) : Decidable (IsRequested folder chosen) :=
  inferInstanceAs (Decidable (∃ a ∈ chosen, _))

theorem trimSlashes_eq_self {t : Text} (h : t.getLast? ≠ some '/') : trimSlashes t = t := by
  refine List.rdropWhile_eq_self_iff.2 fun hne hlast => h ?_
  rw [List.getLast?_eq_some_getLast hne, of_decide_eq_true hlast]

theorem isRequested_of_isInFolders {folder : Text} {chosen : List Text}
    (hfolder : folder.getLast? ≠ some '/') (h : isInFolders folder chosen = true) :
    IsRequested folder chosen := by
  obtain ⟨a, ha, rfl | hbelow⟩ := isInFolders_iff.1 h
  · exact ⟨folder, ha, .inl (trimSlashes_eq_self hfolder).symm⟩
  · exact ⟨a, ha, .inr hbelow⟩

/-! ## the folder of a file -/

theorem getLast?_folderName {names : List FileName} (h : ∀ name ∈ names, Entry.IsFileName name) :
    (folderName names).getLast? ≠ some '/' := by
  rw [folderName]
  split
  · decide
  · rename_i hne
    intro hlast
    obtain ⟨t, ht⟩ := List.getLast?_eq_some_iff.1 hlast
    have hparts := components_intercalate_of_not_mem hne fun name hname => (h name hname).2
    -- behind a slash at the end there would be one more component, and it would be empty
    rw [ht, components, List.splitOn_append_cons_self] at hparts
    have hempty : [] ∈ names := hparts ▸ List.mem_append_right _ List.mem_cons_self
    exact (h [] hempty).1 rfl

section
variable {ws : Workspace} {root : Path} {ignored : List FileName}

theorem exists_leaf_of_mem_sourceFiles {f : SourceFile} (h : f ∈ ws.sourceFiles root ignored) :
    ∃ leaf ∈ (ws.tree root).allLeaves, f = SourceFile.ofLeaf root leaf := by
  rw [Workspace.sourceFiles_eq, Entry.mergeSort_sourceFiles] at h
  obtain ⟨leaf, hleaf, rfl⟩ := List.mem_map.1 h
  exact ⟨leaf, (Entry.mem_sourceLeaves.1 hleaf).below, rfl⟩

theorem folderOf?_of_mem_sourceFiles {f : SourceFile} (h : f ∈ ws.sourceFiles root ignored) :
    folderOf? f.path root = some f.folder := by
  obtain ⟨⟨place, e⟩, hleaf, rfl⟩ := exists_leaf_of_mem_sourceFiles h
  obtain ⟨names, name, rfl⟩ := (List.eq_nil_or_concat' place).resolve_left
    (Entry.leaf_place_ne_nil (place, e) hleaf)
  exact folderOf?_ofLeaf root names name e

theorem getLast?_folder (htree : (ws.tree root).isTree = true) {f : SourceFile}
    (h : f ∈ ws.sourceFiles root ignored) : f.folder.getLast? ≠ some '/' := by
  obtain ⟨leaf, hleaf, rfl⟩ := exists_leaf_of_mem_sourceFiles h
  exact getLast?_folderName fun name hname =>
    Entry.isFileName_place htree leaf hleaf name (List.mem_of_mem_dropLast hname)

theorem mem_files_of_chosen {chosen : List Text} (hchosen : chosen ≠ []) {f : SourceFile} :
    f ∈ (ws.includeChart root ignored chosen).files ↔
      f ∈ ws.sourceFiles root ignored ∧
        ∃ a ∈ chosen, f.folder = a ∨ LiesBelow f.folder (trimSlashes a) := by
  rw [Workspace.includeChart, IncludeChart.ofFiles, if_neg hchosen, List.mem_filter,
    isInFolders_iff]

/-! ## the files that are kept -/

theorem keepsRequested_iff (htree : (ws.tree root).isTree = true) {chosen : List Text}
    (hchosen : chosen ≠ []) :
    (∀ f ∈ ws.sourceFiles root ignored, folderOf? f.path root = some f.folder) ∧
      (∀ f, f ∈ (ws.includeChart root ignored chosen).files ↔
        f ∈ ws.sourceFiles root ignored ∧
          ∃ a ∈ chosen, f.folder = a ∨ LiesBelow f.folder (trimSlashes a)) ∧
      ((∀ f, f ∈ (ws.includeChart root ignored chosen).files ↔
          f ∈ ws.sourceFiles root ignored ∧ IsRequested f.folder chosen) ↔
        ∀ f ∈ ws.sourceFiles root ignored, f.folder ∈ chosen.map trimSlashes →
          f.folder ∈ chosen ∨ ∃ a ∈ chosen, LiesBelow f.folder (trimSlashes a)) := by
  refine ⟨fun f => folderOf?_of_mem_sourceFiles, fun f => mem_files_of_chosen hchosen, ?_⟩
  constructor
  · intro hkept f hf hslashed
    obtain ⟨a, ha, heq⟩ := List.mem_map.1 hslashed
    have hmem := (hkept f).2 ⟨hf, a, ha, .inl heq.symm⟩
    obtain ⟨_, b, hb, rfl | hbelow⟩ := (mem_files_of_chosen hchosen).1 hmem
    · exact .inl hb
    · exact .inr ⟨b, hb, hbelow⟩
  · intro hplain f
    rw [mem_files_of_chosen hchosen]
    refine and_congr_right fun hf => ⟨fun h => ?_, ?_⟩
    · exact isRequested_of_isInFolders (getLast?_folder htree hf) (isInFolders_iff.2 h)
    · rintro ⟨a, ha, heq | hbelow⟩
      · rcases hplain f hf (List.mem_map.2 ⟨a, ha, heq.symm⟩) with hmem | ⟨b, hb, hbelow⟩
        · exact ⟨f.folder, hmem, .inl rfl⟩
        · exact ⟨b, hb, .inr hbelow⟩
      · exact ⟨a, ha, .inr hbelow⟩

end

def layeredTree : Entry := .dir [
  ("src".toList, .dir [
    ("a.c".toList, .ofAscii ""),
    ("core".toList, .dir [("b.c".toList, .ofAscii "")])]),
  ("srcgen".toList, .dir [("c.c".toList, .ofAscii "")])]

def layered : Workspace := .ofLocation layeredTree []

theorem sourceFiles_layered : layered.sourceFiles Path.here standardIgnored
    = layeredTree.sourceFiles Path.here standardIgnored := by
  rw [layered, Workspace.sourceFiles_of_sorted (by decide +kernel), Workspace.tree_here rfl]

/-- the slash does no harm where the folder lies below another chosen one -/
theorem keepsRequested_layered :
    (layered.tree Path.here).isTree = true ∧ ["src/core/".toList, "src".toList] ≠ [] ∧
      (layered.includeChart Path.here standardIgnored ["src/core/".toList, "src".toList]).files.map
        (fun f => f.path.text) = ["src/a.c".toList, "src/core/b.c".toList] ∧
      ∀ f, f ∈ (layered.includeChart Path.here standardIgnored
          ["src/core/".toList, "src".toList]).files ↔
        f ∈ layered.sourceFiles Path.here standardIgnored ∧
          IsRequested f.folder ["src/core/".toList, "src".toList] := by
  have htree : (layered.tree Path.here).isTree = true := by decide +kernel
  have hchosen : ["src/core/".toList, "src".toList] ≠ [] := List.cons_ne_nil _ _
  refine ⟨htree, hchosen, ?_, (keepsRequested_iff htree hchosen).2.2.2 ?_⟩
  · rw [Workspace.includeChart, sourceFiles_layered]
    decide +kernel
  · rw [sourceFiles_layered]
    decide +kernel

/-- the folder `src` itself is lost -/
theorem drops_slashed_folder :
    ¬ ∀ f, f ∈ (layered.includeChart Path.here standardIgnored ["src/".toList]).files ↔
      f ∈ layered.sourceFiles Path.here standardIgnored ∧
        IsRequested f.folder ["src/".toList] := by
  intro h
  have hfile := h ⟨⟨.relative, ["src".toList, "a.c".toList]⟩, "src".toList, some []⟩
  rw [Workspace.includeChart, sourceFiles_layered] at hfile
  exact absurd (hfile.2 (by decide +kernel)) (by decide +kernel)

end CodeChart
