import CodeChart.File.Tree
import Mathlib.Data.List.Nodup
import Mathlib.Data.List.Flatten

/-!
# The leaves of a tree

What lies below a directory is read off its entries, and theirs in turn.  Everything about it is
shown by one induction, over the entries of a directory.

* `Entry.entriesInduction`   the induction: no entries, a first entry that is a leaf, a first entry
                        that is a directory;
* `Entry.leaves_eq_filter`   not entering a directory drops what has its name on the way, and
                        nothing else;
* `Entry.isTree`        names tell the entries of a directory apart, and are `IsFileName`: not empty
                        and without slashes; then the places of the leaves differ
                        (`Entry.nodup_places`);
* `Entry.emptied`       some of the entries that cannot be opened become empty files, which changes
                        no place (`Entry.leaves_emptied`).
-/

namespace CodeChart

namespace Entry

/-! ## entries -/

@[elab_as_elim]
theorem entriesInduction {P : List (FileName × Entry) → Prop} (nil : P [])
    (leaf : ∀ name e rest, e.isDir = false → P rest → P ((name, e) :: rest))
    (dir : ∀ name entries rest, P entries → P rest → P ((name, .dir entries) :: rest)) :
    ∀ entries, P entries
  | [] => nil
  | (name, .file octets) :: rest =>
    leaf name (.file octets) rest rfl (entriesInduction nil leaf dir rest)
  | (name, .special) :: rest => leaf name .special rest rfl (entriesInduction nil leaf dir rest)
  | (name, .dir entries) :: rest =>
    dir name entries rest (entriesInduction nil leaf dir entries)
      (entriesInduction nil leaf dir rest)

def entries : Entry → List (FileName × Entry)
  | .dir entries => entries
  | _ => []

/-- a leaf, seen from the directory around -/
def under (name : FileName) (leaf : List FileName × Entry) : List FileName × Entry :=
  (name :: leaf.1, leaf.2)

section
variable {entered : FileName → Bool}

theorem leaves_eq_leavesOf (e : Entry) : leaves entered e = leavesOf entered e.entries := by
  cases e with
  | file octets => rfl
  | special => rfl
  | dir entries => rfl

theorem leavesOf_cons_leaf {name : FileName} {e : Entry} (h : e.isDir = false)
    (rest : List (FileName × Entry)) :
    leavesOf entered ((name, e) :: rest) = ([name], e) :: leavesOf entered rest := by
  cases e with
  | file octets => rfl
  | special => rfl
  | dir entries => cases h

theorem leavesOf_cons_dir (name : FileName) (entries rest : List (FileName × Entry)) :
    leavesOf entered ((name, .dir entries) :: rest)
      = (if entered name then (leavesOf entered entries).map (under name) else [])
        ++ leavesOf entered rest := rfl

theorem place_ne_nil {entries : List (FileName × Entry)} :
    ∀ leaf ∈ leavesOf entered entries, leaf.1 ≠ [] := by
  induction entries using entriesInduction with
  | nil => exact List.forall_mem_nil _
  | leaf name e rest he ih =>
    rw [leavesOf_cons_leaf he]
    exact List.forall_mem_cons.2 ⟨List.cons_ne_nil name [], ih⟩
  | dir name entries rest _ ih =>
    rw [leavesOf_cons_dir]
    refine List.forall_mem_append.2 ⟨?_, ih⟩
    split
    · exact List.forall_mem_map.2 fun leaf _ => List.cons_ne_nil name leaf.1
    · exact List.forall_mem_nil _

/-! ## directories that are not entered -/

/-- all directories on the way are entered -/
def isReached (entered : FileName → Bool) (leaf : List FileName × Entry) : Bool :=
  leaf.1.dropLast.all entered

theorem isReached_under {name : FileName} {leaf : List FileName × Entry} (h : leaf.1 ≠ []) :
    isReached entered (under name leaf) = (entered name && isReached entered leaf) := by
  rw [isReached, under, List.dropLast_cons_of_ne_nil h, List.all_cons]
  rfl

theorem filter_isReached_map_under {name : FileName} {leaves : List (List FileName × Entry)}
    (h : ∀ leaf ∈ leaves, leaf.1 ≠ []) :
    (leaves.map (under name)).filter (isReached entered)
      = if entered name then (leaves.filter (isReached entered)).map (under name) else [] := by
  rw [List.filter_map]
  have hreached : leaves.filter (isReached entered ∘ under name)
      = leaves.filter fun leaf => entered name && isReached entered leaf :=
    List.filter_congr fun leaf hleaf => isReached_under (h leaf hleaf)
  rw [hreached]
  cases entered name with
  | true => rfl
  | false =>
    have hnone : leaves.filter (fun leaf => false && isReached entered leaf) = [] :=
      List.filter_eq_nil_iff.2 fun _ _ => Bool.false_ne_true
    rw [hnone]
    rfl

theorem leavesOf_eq_filter (entered : FileName → Bool) (entries : List (FileName × Entry)) :
    leavesOf entered entries
      = (leavesOf (fun _ => true) entries).filter (isReached entered) := by
  induction entries using entriesInduction with
  | nil => rfl
  | leaf name e rest he ih => rw [leavesOf_cons_leaf he, leavesOf_cons_leaf he, ih]; rfl
  | dir name entries rest ihIn ih =>
    rw [leavesOf_cons_dir, leavesOf_cons_dir, if_pos rfl, List.filter_append,
      filter_isReached_map_under place_ne_nil, ← ihIn, ← ih]

/-- all leaves, whatever the directories on the way are called -/
def allLeaves (e : Entry) : List (List FileName × Entry) := leaves (fun _ => true) e

theorem leaves_eq_filter (entered : FileName → Bool) (e : Entry) :
    leaves entered e = e.allLeaves.filter (isReached entered) := by
  rw [allLeaves, leaves_eq_leavesOf, leaves_eq_leavesOf, leavesOf_eq_filter]

end

/-! ## trees -/

/-- what an entry can be called -/
def IsFileName (name : FileName) : Prop := name ≠ [] ∧ '/' ∉ name

instance (name : FileName) : Decidable (IsFileName name) := inferInstanceAs (Decidable (_ ∧ _))

mutual

/-- no two entries of a directory have the same name -/
def isTree : Entry → Bool
  | .dir entries => areTrees entries
  | _ => true

def areTrees : List (FileName × Entry) → Bool
  | [] => true
  | (name, e) :: rest =>
    decide (IsFileName name) && !(rest.map Prod.fst).contains name && e.isTree && areTrees rest

end

theorem areTrees_cons {name : FileName} {e : Entry} {rest : List (FileName × Entry)}
    (h : areTrees ((name, e) :: rest) = true) :
    IsFileName name ∧ name ∉ rest.map Prod.fst ∧ e.isTree = true ∧ areTrees rest = true := by
  simp only [areTrees, Bool.and_eq_true, Bool.not_eq_true', List.contains_eq_mem,
    decide_eq_false_iff_not, decide_eq_true_eq] at h
  exact ⟨h.1.1.1, h.1.1.2, h.1.2, h.2⟩

theorem areTrees_entries {e : Entry} (h : e.isTree = true) : areTrees e.entries = true := by
  cases e with
  | file octets => rfl
  | special => rfl
  | dir entries => exact h

section
variable {entered : FileName → Bool}

/-- a place begins with the name of an entry -/
theorem head_mem_names {entries : List (FileName × Entry)} :
    ∀ leaf ∈ leavesOf entered entries, ∃ name ∈ entries.map Prod.fst,
      leaf.1.head? = some name := by
  induction entries using entriesInduction with
  | nil => exact List.forall_mem_nil _
  | leaf name e rest he ih =>
    rw [leavesOf_cons_leaf he]
    refine List.forall_mem_cons.2 ⟨⟨name, List.mem_cons_self, rfl⟩, fun leaf hleaf => ?_⟩
    obtain ⟨first, hmem, hhead⟩ := ih leaf hleaf
    exact ⟨first, List.mem_cons_of_mem _ hmem, hhead⟩
  | dir name entries rest _ ih =>
    rw [leavesOf_cons_dir]
    refine List.forall_mem_append.2 ⟨?_, fun leaf hleaf => ?_⟩
    · split
      · exact List.forall_mem_map.2 fun leaf _ => ⟨name, List.mem_cons_self, rfl⟩
      · exact List.forall_mem_nil _
    · obtain ⟨first, hmem, hhead⟩ := ih leaf hleaf
      exact ⟨first, List.mem_cons_of_mem _ hmem, hhead⟩

theorem isFileName_leavesOf {entries : List (FileName × Entry)} (h : areTrees entries = true) :
    ∀ leaf ∈ leavesOf entered entries, ∀ name ∈ leaf.1, IsFileName name := by
  induction entries using entriesInduction with
  | nil => exact List.forall_mem_nil _
  | leaf name e rest he ih =>
    obtain ⟨hname, _, _, hrest⟩ := areTrees_cons h
    rw [leavesOf_cons_leaf he]
    exact List.forall_mem_cons.2 ⟨List.forall_mem_singleton.2 hname, ih hrest⟩
  | dir name entries rest ihIn ih =>
    obtain ⟨hname, _, hin, hrest⟩ := areTrees_cons h
    rw [leavesOf_cons_dir]
    refine List.forall_mem_append.2 ⟨?_, ih hrest⟩
    split
    · exact List.forall_mem_map.2 fun leaf hleaf =>
        List.forall_mem_cons.2 ⟨hname, ihIn hin leaf hleaf⟩
    · exact List.forall_mem_nil _

theorem nodup_places_leavesOf {entries : List (FileName × Entry)} (h : areTrees entries = true) :
    ((leavesOf entered entries).map Prod.fst).Nodup := by
  induction entries using entriesInduction with
  | nil => exact List.nodup_nil
  | leaf name e rest he ih =>
    obtain ⟨_, hnew, _, hrest⟩ := areTrees_cons h
    rw [leavesOf_cons_leaf he, List.map_cons]
    refine List.nodup_cons.2 ⟨fun hmem => ?_, ih hrest⟩
    obtain ⟨leaf, hleaf, hplace⟩ := List.mem_map.1 hmem
    obtain ⟨first, hfirst, hhead⟩ := head_mem_names leaf hleaf
    rw [hplace] at hhead
    exact hnew (Option.some.inj hhead ▸ hfirst)
  | dir name entries rest ihIn ih =>
    obtain ⟨_, hnew, hin, hrest⟩ := areTrees_cons h
    rw [leavesOf_cons_dir, List.map_append]
    refine List.nodup_append.2 ⟨?_, ih hrest, ?_⟩
    · split
      · rw [List.map_map]
        have hunder : Prod.fst ∘ under name = List.cons name ∘ Prod.fst := rfl
        rw [hunder, ← List.map_map]
        exact (ihIn hin).map (List.cons_injective (a := name))
      · exact List.nodup_nil
    · intro place hplace other hother hsame
      obtain ⟨leaf, hleaf, rfl⟩ := List.mem_map.1 hother
      obtain ⟨first, hfirst, hhead⟩ := head_mem_names leaf hleaf
      split at hplace
      · obtain ⟨below, hbelow, rfl⟩ := List.mem_map.1 hplace
        obtain ⟨inner, _, rfl⟩ := List.mem_map.1 hbelow
        rw [← hsame] at hhead
        exact hnew (Option.some.inj hhead ▸ hfirst)
      · cases hplace

theorem nodup_places {e : Entry} (h : e.isTree = true) :
    ((leaves entered e).map Prod.fst).Nodup := by
  rw [leaves_eq_leavesOf]
  exact nodup_places_leavesOf (areTrees_entries h)

theorem isFileName_place {e : Entry} (h : e.isTree = true) :
    ∀ leaf ∈ leaves entered e, ∀ name ∈ leaf.1, IsFileName name := by
  rw [leaves_eq_leavesOf]
  exact isFileName_leavesOf (areTrees_entries h)

end

/-! ## empty files in place of others -/

mutual

/-- `which` picks by the place -/
def emptied (which : List FileName → Bool) : Entry → Entry
  | .file octets => .file octets
  | .special => if which [] then .file [] else .special
  | .dir entries => .dir (emptiedIn which entries)

def emptiedIn (which : List FileName → Bool) : List (FileName × Entry) → List (FileName × Entry)
  | [] => []
  | (name, e) :: rest =>
    (name, emptied (fun place => which (name :: place)) e) :: emptiedIn which rest

end

def emptiedLeaf (which : List FileName → Bool) (leaf : List FileName × Entry) :
    List FileName × Entry :=
  (leaf.1, leaf.2.emptied fun place => which (leaf.1 ++ place))

theorem isDir_emptied (which : List FileName → Bool) (e : Entry) :
    (e.emptied which).isDir = e.isDir := by
  cases e with
  | file octets => rfl
  | special =>
    rw [emptied]
    split <;> rfl
  | dir entries => rfl

section
variable {entered : FileName → Bool}

theorem leavesOf_emptiedIn (which : List FileName → Bool) (entries : List (FileName × Entry)) :
    leavesOf entered (emptiedIn which entries)
      = (leavesOf entered entries).map (emptiedLeaf which) := by
  induction entries using entriesInduction generalizing which with
  | nil => rfl
  | leaf name e rest he ih =>
    rw [leavesOf_cons_leaf he, List.map_cons, ← ih which, emptiedIn,
      leavesOf_cons_leaf ((isDir_emptied _ e).trans he)]
    rfl
  | dir name entries rest ihIn ih =>
    rw [emptiedIn, emptied, leavesOf_cons_dir, leavesOf_cons_dir, List.map_append, ih which,
      ihIn fun place => which (name :: place)]
    split
    · rw [List.map_map, List.map_map]
      rfl
    · rfl

theorem leaves_emptied (which : List FileName → Bool) (e : Entry) :
    leaves entered (e.emptied which) = (leaves entered e).map (emptiedLeaf which) := by
  have hentries : (e.emptied which).entries = emptiedIn which e.entries := by
    cases e with
    | file octets => rfl
    | special =>
      rw [emptied]
      split <;> rfl
    | dir entries => rfl
  rw [leaves_eq_leavesOf, leaves_eq_leavesOf, hentries, leavesOf_emptiedIn]

end

end Entry

end CodeChart
