import CodeChart.Proofs.Include.Folder
import CodeChart.Proofs.Graph.Plain

/-!
# What a scan finds

The files below a root are the entries of its tree that are no directories, have the name of a
source file and lie in no ignored directory.  They come in the order of their paths, whatever the
order in which directories list their entries.

* `Entry.LiesIn`        an entry that is no directory, with the names that lead to it;
                        `Entry.mem_leavesOf_iff` says that these are the leaves;
* `Entry.Relisted`      the same entries in other orders, in all the directories;
                        `Entry.Relisted.perm_leavesOf`;
* `IsScan`, `IsFolderList`   what a list of files, and a list of folders, has to be;
* `scan_isExact`        the scan of a tree is this, and the same for each order of the entries.
-/

namespace CodeChart

namespace Entry

/-! ## entries at places -/

/-- the names lead from directory to directory, the last one to an entry that is none -/
inductive LiesIn : List (FileName × Entry) → List FileName → Entry → Prop
  | here {entries name e} (h : (name, e) ∈ entries) (hdir : e.isDir = false) :
    LiesIn entries [name] e
  | further {entries name inner place e} (h : (name, .dir inner) ∈ entries)
    (hin : LiesIn inner place e) : LiesIn entries (name :: place) e

theorem LiesIn.mono {entries entries' : List (FileName × Entry)} {place : List FileName} {e : Entry}
    (h : LiesIn entries place e) (hsub : entries ⊆ entries') : LiesIn entries' place e := by
  cases h with
  | here hmem hdir => exact .here (hsub hmem) hdir
  | further hmem hin => exact .further (hsub hmem) hin

theorem liesIn_cons {entry : FileName × Entry} {rest : List (FileName × Entry)}
    {place : List FileName} {e : Entry} :
    LiesIn (entry :: rest) place e ↔ LiesIn [entry] place e ∨ LiesIn rest place e := by
  constructor
  · intro h
    cases h with
    | here hmem hdir =>
      rcases List.mem_cons.1 hmem with heq | hmem
      · exact .inl (.here (List.mem_singleton.2 heq) hdir)
      · exact .inr (.here hmem hdir)
    | further hmem hin =>
      rcases List.mem_cons.1 hmem with heq | hmem
      · exact .inl (.further (List.mem_singleton.2 heq) hin)
      · exact .inr (.further hmem hin)
  · intro h
    rcases h with h | h
    · apply h.mono
      intro first hfirst
      exact List.mem_singleton.1 hfirst ▸ List.mem_cons_self
    · exact h.mono (List.subset_cons_self entry rest)

theorem mem_leavesOf_iff {entries : List (FileName × Entry)} {place : List FileName} {e : Entry} :
    (place, e) ∈ leavesOf (fun _ => true) entries ↔ LiesIn entries place e := by
  induction entries using entriesInduction generalizing place e with
  | nil =>
    constructor
    · intro h
      cases h
    · intro h
      cases h with
      | here hmem _ => cases hmem
      | further hmem _ => cases hmem
  | leaf name leaf rest hleaf ih =>
    have hsingle : LiesIn [(name, leaf)] place e ↔ (place, e) = ([name], leaf) := by
      constructor
      · intro h
        cases h with
        | here hmem _ =>
          obtain ⟨rfl, rfl⟩ := Prod.mk.inj (List.mem_singleton.1 hmem)
          rfl
        | further hmem _ =>
          obtain ⟨_, rfl⟩ := Prod.mk.inj (List.mem_singleton.1 hmem)
          cases hleaf
      · intro h
        obtain ⟨rfl, rfl⟩ := Prod.mk.inj h
        exact .here (List.mem_singleton_self _) hleaf
    rw [leavesOf_cons_leaf hleaf, List.mem_cons, ih, liesIn_cons, hsingle]
  | dir name inner rest ihIn ih =>
    have hsingle : LiesIn [(name, .dir inner)] place e ↔
        (place, e) ∈ (leavesOf (fun _ => true) inner).map (under name) := by
      rw [List.mem_map]
      constructor
      · intro h
        cases h with
        | here hmem hdir =>
          obtain ⟨_, rfl⟩ := Prod.mk.inj (List.mem_singleton.1 hmem)
          cases hdir
        | @further _ _ _ place _ hmem hin =>
          obtain ⟨rfl, hinner⟩ := Prod.mk.inj (List.mem_singleton.1 hmem)
          cases hinner
          exact ⟨(place, e), ihIn.2 hin, rfl⟩
      · intro h
        obtain ⟨⟨place, e⟩, hin, heq⟩ := h
        obtain ⟨rfl, rfl⟩ := Prod.mk.inj heq
        exact .further (List.mem_singleton_self _) (ihIn.1 hin)
    rw [leavesOf_cons_dir, if_pos rfl, List.mem_append, ih, liesIn_cons, hsingle]

theorem mem_allLeaves_iff {e leaf : Entry} {place : List FileName} :
    (place, leaf) ∈ e.allLeaves ↔ LiesIn e.entries place leaf := by
  rw [allLeaves, leaves_eq_leavesOf]
  exact mem_leavesOf_iff

/-! ## other orders of the entries -/

/-- the same entries in other orders, here and in the directories further in -/
inductive Relisted : List (FileName × Entry) → List (FileName × Entry) → Prop
  | nil : Relisted [] []
  | cons (entry) {rest rest'} (h : Relisted rest rest') : Relisted (entry :: rest) (entry :: rest')
  | dir (name) {inner inner' rest rest'} (hin : Relisted inner inner') (h : Relisted rest rest') :
    Relisted ((name, .dir inner) :: rest) ((name, .dir inner') :: rest')
  | swap (first second rest) : Relisted (first :: second :: rest) (second :: first :: rest)
  | trans {entries entries' entries''} (h : Relisted entries entries')
    (h' : Relisted entries' entries'') : Relisted entries entries''

theorem leavesOf_cons {entered : FileName → Bool} (entry : FileName × Entry)
    (rest : List (FileName × Entry)) :
    leavesOf entered (entry :: rest) = leavesOf entered [entry] ++ leavesOf entered rest := by
  obtain ⟨name, e⟩ := entry
  cases e with
  | file octets => rfl
  | special => rfl
  | dir inner =>
    rw [leavesOf_cons_dir, leavesOf_cons_dir]
    simp only [leavesOf, List.append_nil]

theorem Relisted.perm_leavesOf {entered : FileName → Bool}
    {entries entries' : List (FileName × Entry)} (h : Relisted entries entries') :
    (leavesOf entered entries).Perm (leavesOf entered entries') := by
  induction h with
  | nil => exact List.Perm.refl _
  | @cons entry rest rest' _ ih =>
    rw [leavesOf_cons entry rest, leavesOf_cons entry rest']
    exact ih.append_left _
  | dir name _ _ ihIn ih =>
    rw [leavesOf_cons_dir, leavesOf_cons_dir]
    refine List.Perm.append ?_ ih
    split
    · exact ihIn.map _
    · exact List.Perm.refl _
  | swap first second rest =>
    rw [leavesOf_cons first (second :: rest), leavesOf_cons second rest,
      leavesOf_cons second (first :: rest), leavesOf_cons first rest, ← List.append_assoc,
      ← List.append_assoc]
    exact List.perm_append_comm.append_right _
  | trans _ _ ih ih' => exact ih.trans ih'

end Entry

/-! ## a scan -/

/-- what the files below `root` have to be, where `tree` lies there -/
structure IsScan (tree : Entry) (root : Path) (ignored : List FileName) (files : List SourceFile) :
    Prop where
  /-- every source file that lies in no ignored directory, and nothing else -/
  mem_iff : ∀ f, f ∈ files ↔ ∃ folders name e, Entry.LiesIn tree.entries (folders ++ [name]) e ∧
    (∀ folder ∈ folders, folder ∉ ignored) ∧
    (∃ extension ∈ sourceExtensions, extension.1 <:+ lowerCase name) ∧
    f = SourceFile.ofLeaf root (folders ++ [name], e)
  ascending : files.Pairwise fun f g => f.path.text < g.path.text
  folder : ∀ f ∈ files, folderOf? f.path root = some f.folder

structure IsFolderList (root : Path) (files : List SourceFile) (folders : List Text) : Prop where
  mem_iff : ∀ t, t ∈ folders ↔ ∃ f ∈ files, folderOf? f.path root = some t
  ascending : folders.Pairwise fun t u => t < u

namespace Workspace

section
variable {ws : Workspace} {root : Path} {ignored : List FileName}

theorem mem_sourceFiles_iff {f : SourceFile} : f ∈ ws.sourceFiles root ignored ↔
    ∃ leaf, (ws.tree root).IsFound ignored leaf ∧ f = SourceFile.ofLeaf root leaf := by
  simp only [sourceFiles_eq, Entry.mergeSort_sourceFiles, List.mem_map, Entry.mem_sourceLeaves,
    eq_comm]

theorem pairwise_sourceFiles : (ws.sourceFiles root ignored).Pairwise fun f g =>
    pathLe f g = true := by
  rw [sourceFiles_eq]
  exact List.pairwise_mergeSort pathLe_trans pathLe_total _

end

end Workspace

theorem Entry.IsFound.isSource {tree : Entry} {ignored : List FileName} {folders : List FileName}
    {name : FileName} {e : Entry} : tree.IsFound ignored (folders ++ [name], e) ↔
      LiesIn tree.entries (folders ++ [name]) e ∧ (∀ folder ∈ folders, folder ∉ ignored) ∧
        ∃ extension ∈ sourceExtensions, extension.1 <:+ lowerCase name := by
  have hsource : isSourceLeaf (folders ++ [name], e) = true ↔
      ∃ extension ∈ sourceExtensions, extension.1 <:+ lowerCase name := by
    rw [isSourceLeaf, List.getLast?_concat, Option.getD_some, isSourceName, List.any_eq_true]
    simp only [List.isSuffixOf_iff_suffix]
  rw [← hsource, ← mem_allLeaves_iff]
  constructor
  · intro h
    have hreached := h.reached
    rw [List.dropLast_concat] at hreached
    exact ⟨h.below, hreached, h.source⟩
  · intro h
    obtain ⟨hbelow, hreached, hsource⟩ := h
    exact ⟨hbelow, by rwa [List.dropLast_concat], hsource⟩

section
variable {ws : Workspace} {root : Path} {ignored : List FileName}

theorem Workspace.nodup_texts_sourceFiles (h : (ws.tree root).isTree = true) :
    ((ws.sourceFiles root ignored).map fun f => f.path.text).Nodup := by
  obtain ⟨front, hfront⟩ := root.exists_text_append
  have hbelow : ∀ leaf ∈ (ws.tree root).sourceLeaves ignored, leaf ∈ (ws.tree root).allLeaves :=
    fun leaf hleaf => (Entry.mem_sourceLeaves.1 hleaf).below
  have htext : ∀ leaf ∈ (ws.tree root).sourceLeaves ignored,
      (SourceFile.ofLeaf root leaf).path.text = front ++ Entry.placeText leaf := fun leaf hleaf =>
    hfront leaf.1 (Entry.leaf_place_ne_nil leaf (hbelow leaf hleaf))
  have hleaves : ((ws.tree root).sourceLeaves ignored).Nodup :=
    List.Nodup.of_map Prod.fst (Entry.nodup_places_sourceLeaves ignored h)
  rw [sourceFiles_eq, Entry.mergeSort_sourceFiles, List.map_map]
  refine hleaves.map_on fun a ha b hb hab => ?_
  have hplace : front ++ Entry.placeText a = front ++ Entry.placeText b := by
    rw [← htext a ha, ← htext b hb]
    exact hab
  exact Entry.leaf_eq_of_placeText h (hbelow a ha) (hbelow b hb) (List.append_cancel_left hplace)

theorem isScan_sourceFiles (h : (ws.tree root).isTree = true) :
    IsScan (ws.tree root) root ignored (ws.sourceFiles root ignored) := by
  refine ⟨fun f => ?_, ?_, fun f hf => folderOf?_of_mem_sourceFiles hf⟩
  · rw [Workspace.mem_sourceFiles_iff]
    constructor
    · intro hfound
      obtain ⟨⟨place, e⟩, hleaf, rfl⟩ := hfound
      obtain ⟨folders, name, rfl⟩ := (List.eq_nil_or_concat' place).resolve_left
        (Entry.leaf_place_ne_nil (place, e) hleaf.below)
      obtain ⟨hlies, hreached, hsource⟩ := Entry.IsFound.isSource.1 hleaf
      exact ⟨folders, name, e, hlies, hreached, hsource, rfl⟩
    · intro hfound
      obtain ⟨folders, name, e, hlies, hreached, hsource, rfl⟩ := hfound
      exact ⟨_, Entry.IsFound.isSource.2 ⟨hlies, hreached, hsource⟩, rfl⟩
  · exact pairwise_lt_of_nodup Workspace.pairwise_sourceFiles (Workspace.nodup_texts_sourceFiles h)

theorem isFolderList_projectFolders : IsFolderList root (ws.sourceFiles root ignored)
    (projectFolders (ws.sourceFiles root ignored)) := by
  refine ⟨fun t => ?_, ?_⟩
  · rw [projectFolders, List.mem_mergeSort, List.mem_eraseDups, List.mem_map]
    constructor
    · intro h
      obtain ⟨f, hf, rfl⟩ := h
      exact ⟨f, hf, folderOf?_of_mem_sourceFiles hf⟩
    · intro h
      obtain ⟨f, hf, hfolder⟩ := h
      rw [folderOf?_of_mem_sourceFiles hf] at hfolder
      exact ⟨f, hf, Option.some.inj hfolder⟩
  · have hsorted := List.pairwise_mergeSort textLe_trans textLe_total
      ((ws.sourceFiles root ignored).map SourceFile.folder).eraseDups
    have hnodup : (projectFolders (ws.sourceFiles root ignored)).Nodup :=
      (List.mergeSort_perm _ _).nodup_iff.2 (nodup_eraseDups _)
    exact (hsorted.and hnodup).imp fun hfg => lt_of_textLe hfg.1 hfg.2

end

/-- **a scan finds the source files of a tree**, each once and in the order of their paths, and
their folders, however the directories list their entries -/
theorem scan_isExact {ws : Workspace} {root : Path} (h : (ws.tree root).isTree = true)
    (ignored : List FileName) :
    IsScan (ws.tree root) root ignored (ws.sourceFiles root ignored) ∧
    IsFolderList root (ws.sourceFiles root ignored)
      (projectFolders (ws.sourceFiles root ignored)) ∧
    ∀ ws' : Workspace, Entry.Relisted (ws.tree root).entries (ws'.tree root).entries →
      ws'.sourceFiles root ignored = ws.sourceFiles root ignored := by
  refine ⟨isScan_sourceFiles h, isFolderList_projectFolders, fun ws' hlisted => ?_⟩
  have hperm : (ws.tree root).allLeaves.Perm (ws'.tree root).allLeaves := by
    rw [Entry.allLeaves, Entry.allLeaves, Entry.leaves_eq_leavesOf, Entry.leaves_eq_leavesOf]
    exact hlisted.perm_leavesOf
  rw [Workspace.sourceFiles_eq, Workspace.sourceFiles_eq, Entry.mergeSort_sourceFiles,
    Entry.mergeSort_sourceFiles, Entry.sourceLeaves_congr ignored h hperm]

/-- a project in a directory with a name that is ignored further in -/
def listed (entries : List (FileName × Entry)) : Workspace :=
  .ofLocation (.dir [("build".toList, .dir entries)]) []

def buildPath : Path := ⟨.relative, ["build".toList]⟩

def sortedEntries : List (FileName × Entry) := [
  ("core".toList, .dir [("B.HPP".toList, .special), ("a.cc".toList, .ofAscii "")]),
  ("build".toList, .dir [("x.c".toList, .ofAscii "")]),
  ("main.c".toList, .ofAscii ""), ("notes.txt".toList, .ofAscii "")]

def shuffledEntries : List (FileName × Entry) := [
  ("build".toList, .dir [("x.c".toList, .ofAscii "")]),
  ("core".toList, .dir [("a.cc".toList, .ofAscii ""), ("B.HPP".toList, .special)]),
  ("main.c".toList, .ofAscii ""), ("notes.txt".toList, .ofAscii "")]

theorem relisted_shuffledEntries : Entry.Relisted sortedEntries shuffledEntries := by
  have hrefl : ∀ rest, Entry.Relisted rest rest := by
    intro rest
    induction rest with
    | nil => exact .nil
    | cons entry rest ih => exact .cons entry ih
  exact .trans (.dir "core".toList (.swap _ _ []) (hrefl _)) (.swap _ _ _)

theorem scan_isExact_listed :
    ((listed sortedEntries).tree buildPath).isTree = true ∧
      Entry.Relisted ((listed sortedEntries).tree buildPath).entries
        ((listed shuffledEntries).tree buildPath).entries ∧
      ((listed shuffledEntries).sourceFiles buildPath standardIgnored).map (fun f => f.path.text)
        = ["build/core/B.HPP".toList, "build/core/a.cc".toList, "build/main.c".toList] := by
  have htree : ((listed sortedEntries).tree buildPath).isTree = true := by decide +kernel
  have hlisted : Entry.Relisted ((listed sortedEntries).tree buildPath).entries
      ((listed shuffledEntries).tree buildPath).entries := relisted_shuffledEntries
  refine ⟨htree, hlisted, ?_⟩
  rw [(scan_isExact htree standardIgnored).2.2 (listed shuffledEntries) hlisted,
    Workspace.sourceFiles_of_sorted (by decide +kernel)]
  decide +kernel

end CodeChart
