import CodeChart.Proofs.Builder.Unlined
import CodeChart.Proofs.Pairing
import CodeChart.Proofs.Source.Origin
import CodeChart.Proofs.Source.Seam

/-!
# A block comment in a text

A comment is deleted with the line ends in it, so the text around it is read as if it had never been
there.  What stands behind it keeps its characters and moves down by the lines of the comment.

* `withBlockComment`     a text with a comment at some place;
* `uncommented_of_dropComments`   what is left of a text is found by reading it with its positions;
* `moved`                the new position of what stands behind the comment;
* `exists_kept`          without comments the two texts hold the same characters, which stand where
                         they stood or have moved;
* `lineAt_moved`         the line of the new position;
* `LogicalLine.MovesTo`  the new number of a logical line, told by its first visible character;
* `blockComment_invisible`   the logical lines have the same texts, and the flowcharts are the same
                         but for the line numbers.
-/

namespace CodeChart

def blockComment (c : Text) : Text := commentOpener ++ (c ++ commentCloser)

def withBlockComment (u c v : Text) : Text := u ++ (blockComment c ++ v)

/-! ## positions -/

/-- a character with its position in the place of its line -/
def positioned (x : Char × Nat) : Located := ⟨x.1, x.2⟩

theorem positioned_injective : Function.Injective positioned :=
  fun _ _ h => Prod.ext (congrArg Located.char h) (congrArg Located.line h)

theorem char_positioned (t : Text) (k : Nat) :
    ((t.zipIdx k).map positioned).map Located.char = t := by
  rw [List.map_map]
  exact List.zipIdx_map_fst k t

theorem Uncommented.dropComments_positioned {t kept : List (Char × Nat)}
    (h : Uncommented Prod.fst t kept) : dropComments (t.map positioned) = kept.map positioned :=
  (h.map (f := positioned) fun _ => rfl).dropComments_eq

theorem uncommented_of_dropComments {t kept : List (Char × Nat)}
    (h : dropComments (t.map positioned) = kept.map positioned) : Uncommented Prod.fst t kept := by
  obtain ⟨k, hk⟩ := exists_uncommented Prod.fst t
  have hmap : kept.map positioned = k.map positioned := h.symm.trans hk.dropComments_positioned
  rwa [List.map_injective_iff.2 positioned_injective hmap]

/-- where a position is once a text of the given length has come in at `place` -/
def moved (place length : Nat) (x : Char × Nat) : Char × Nat :=
  if x.2 < place then x else (x.1, x.2 + length)

theorem moved_fst (place length : Nat) (x : Char × Nat) : (moved place length x).1 = x.1 := by
  unfold moved
  split <;> rfl

theorem map_moved_of_lt {place length : Nat} {t : List (Char × Nat)} (h : ∀ x ∈ t, x.2 < place) :
    t.map (moved place length) = t :=
  (List.map_congr_left (g := id) fun x hx => if_pos (h x hx)).trans (List.map_id t)

theorem map_moved_of_le {place length : Nat} {t : List (Char × Nat)} (h : ∀ x ∈ t, place ≤ x.2) :
    t.map (moved place length) = t.map (Prod.map id (· + length)) :=
  List.map_congr_left fun x hx => if_neg (Nat.not_lt.2 (h x hx))

theorem zipIdx_moved (place length : Nat) (v : Text) :
    v.zipIdx (length + place) = (v.zipIdx place).map (moved place length) := by
  rw [map_moved_of_le fun _ => List.le_snd_of_mem_zipIdx, List.map_snd_add_zipIdx_eq_zipIdx]

/-! ## what is left of the two texts -/

theorem newlines_blockComment (c : Text) : newlines (blockComment c) = newlines c := by
  have hmarks : newlines commentOpener = 0 ∧ newlines commentCloser = 0 := by decide
  rw [blockComment, newlines_append, newlines_append, hmarks.1, hmarks.2]
  omega

section
variable {u c v : Text} (hu : ClosesComments u) (hc : ¬ commentCloser <:+: c)
  (hseam : u.getLast? = some '/' → v.head? ≠ some '*')
include hu hc hseam

theorem exists_kept : ∃ kept, Uncommented Prod.fst (u ++ v).zipIdx kept ∧
    Uncommented Prod.fst (withBlockComment u c v).zipIdx
      (kept.map (moved u.length (blockComment c).length)) := by
  obtain ⟨upper, hupper⟩ := exists_uncommented Prod.fst u.zipIdx
  obtain ⟨lower, hlower⟩ := exists_uncommented Prod.fst (v.zipIdx u.length)
  have hstay : upper.map (moved u.length (blockComment c).length) = upper :=
    map_moved_of_lt fun x hx => by
      simpa using List.snd_lt_of_mem_zipIdx (hupper.sublist.subset hx)
  have hmove : ∀ x : Char × Nat, (moved u.length (blockComment c).length x).1 = x.1 :=
    moved_fst _ _
  have hlower' := hlower.map hmove
  rw [← zipIdx_moved] at hlower'
  have hclosed : ClosesComments ((u.zipIdx.map positioned).map Located.char) := by
    rwa [char_positioned]
  have hcomment : (((blockComment c).zipIdx u.length).map positioned).map Located.char
      = commentOpener ++ (c ++ commentCloser) := char_positioned (blockComment c) u.length
  refine ⟨upper ++ lower, uncommented_of_dropComments ?_, uncommented_of_dropComments ?_⟩
  · rw [List.zipIdx_append, Nat.zero_add, List.map_append, List.map_append,
      dropComments_append hclosed, hupper.dropComments_positioned,
      hlower.dropComments_positioned]
    rwa [char_positioned, char_positioned]
  · rw [withBlockComment, List.zipIdx_append, List.zipIdx_append, Nat.zero_add, Nat.add_comm,
      List.map_append, List.map_append, List.map_append, hstay, List.map_append,
      dropComments_comment hclosed hc hcomment, hupper.dropComments_positioned,
      hlower'.dropComments_positioned]

end

/-! ## lines -/

theorem lineAt_moved (u c v : Text) (x : Char × Nat) :
    lineAt (withBlockComment u c v) (moved u.length (blockComment c).length x).2
      = if x.2 < u.length then lineAt (u ++ v) x.2 else lineAt (u ++ v) x.2 + newlines c := by
  unfold lineAt moved withBlockComment
  split
  · rename_i hlt
    rw [List.take_append_of_le_length (Nat.le_of_lt hlt),
      List.take_append_of_le_length (Nat.le_of_lt hlt)]
  · rename_i hle
    obtain ⟨j, hj⟩ := Nat.exists_eq_add_of_le (Nat.not_lt.1 hle)
    have hlong : x.2 + (blockComment c).length = u.length + ((blockComment c).length + j) := by
      omega
    show 1 + newlines (List.take (x.2 + (blockComment c).length) _) = _
    rw [hlong, hj, List.take_length_add_append, List.take_length_add_append,
      List.take_length_add_append, newlines_append, newlines_append, newlines_append,
      newlines_blockComment]
    omega

/-- the number of a logical line, and the one that it has once `lines` lines have come in at
`place`, in front of it or behind -/
def LogicalLine.MovesTo (place lines : Nat) (row : List (Char × Nat)) (l l' : LogicalLine) : Prop :=
  ∀ x, firstVisible row = some x → l'.line = if x.2 < place then l.line else l.line + lines

theorem firstVisible_moved (place length : Nat) (row : List (Char × Nat)) :
    firstVisible (row.map (moved place length)) = (firstVisible row).map (moved place length) := by
  unfold firstVisible
  rw [List.find?_map]
  simp only [Function.comp_def, moved_fst]

theorem LogicalLine.ComesFrom.movesTo {u c v : Text} {row : List (Char × Nat)} {l l' : LogicalLine}
    (h : l.ComesFrom (u ++ v) row)
    (h' : l'.ComesFrom (withBlockComment u c v)
      (row.map (moved u.length (blockComment c).length))) :
    LogicalLine.MovesTo u.length (newlines c) row l l' := by
  intro x hx
  have hx' : firstVisible (row.map (moved u.length (blockComment c).length))
      = some (moved u.length (blockComment c).length x) := by
    rw [firstVisible_moved, hx, Option.map_some]
  rw [h'.line _ hx', lineAt_moved, h.line x hx]

theorem texts_of_comeFrom {src : Text} {rows : List (List (Char × Nat))} {ls : List LogicalLine}
    (h : List.Forall₂ (fun row l => LogicalLine.ComesFrom l src row) rows ls) :
    ls.map LogicalLine.text = rows.map (List.map Prod.fst) := by
  induction h with
  | nil => rfl
  | cons hl _ ih => rw [List.map_cons, List.map_cons, hl.text, ih]

theorem Uncommented.uncommented_eq {src : Text} {kept : List (Char × Nat)}
    (h : Uncommented Prod.fst src.zipIdx kept) : uncommented src = kept.map Prod.fst := by
  rw [uncommented, h.dropComments_locate, List.map_map]
  rfl

/-! ## a comment -/

/-- what a comment `c` between `u` and `v` leaves as it is; the rows are those of the text without
it, and a row that begins in `v` has its number increased -/
structure IsInvisible (u c v : Text) : Prop where
  texts : (logicalLines (withBlockComment u c v)).map LogicalLine.text
    = (logicalLines (u ++ v)).map LogicalLine.text
  numbers : ∃ kept rows, Uncommented Prod.fst (u ++ v).zipIdx kept ∧ Rows Prod.fst kept rows ∧
    List.Forall₂ (fun row l => LogicalLine.ComesFrom l (u ++ v) row) rows (logicalLines (u ++ v)) ∧
    ∀ (i : Nat) (row : List (Char × Nat)) (l l' : LogicalLine), rows[i]? = some row →
      (logicalLines (u ++ v))[i]? = some l →
      (logicalLines (withBlockComment u c v))[i]? = some l' →
      LogicalLine.MovesTo u.length (newlines c) row l l'
  chart : (Builder.ofSource (withBlockComment u c v)).withoutLines
    = (Builder.ofSource (u ++ v)).withoutLines

/-- **a block comment is invisible**: with it or without it a text has the same logical lines and
the same flowchart, and only the numbers of the lines that begin behind it go up, by its line
ends -/
theorem blockComment_invisible {u c v : Text} (hu : ClosesComments u)
    (hc : ¬ commentCloser <:+: c) (hseam : u.getLast? = some '/' → v.head? ≠ some '*') :
    IsInvisible u c v := by
  have hmove : ∀ x : Char × Nat, (moved u.length (blockComment c).length x).1 = x.1 :=
    moved_fst _ _
  have hchars : ∀ t : List (Char × Nat),
      (t.map (moved u.length (blockComment c).length)).map Prod.fst = t.map Prod.fst := by
    intro t
    rw [List.map_map]
    exact List.map_congr_left fun x _ => hmove x
  obtain ⟨kept, hk, hk'⟩ := exists_kept hu hc hseam
  obtain ⟨rows, hr⟩ := exists_rows Prod.fst kept
  have hlines := logicalLines_comeFrom hk hr
  have hlines' := logicalLines_comeFrom hk' (hr.map hmove)
  refine ⟨?_, ⟨kept, rows, hk, hr, hlines, fun i row l l' hrow hl hl' => ?_⟩, ?_⟩
  · rw [texts_of_comeFrom hlines', texts_of_comeFrom hlines, List.map_map]
    exact List.map_congr_left fun row _ => hchars row
  · rw [List.forall₂_map_left_iff] at hlines'
    exact (forall₂_of_getElem? hlines hrow hl).movesTo (forall₂_of_getElem? hlines' hrow hl')
  · refine Builder.withoutLines_ofSource_congr ?_
    rw [map_text_statements, map_text_statements, hk.uncommented_eq, hk'.uncommented_eq, hchars]

/-- a comment over two lines between two slashes, behind another one -/
theorem blockComment_invisible_split :
    ClosesComments "a(); /* x */ b() /".toList ∧ ¬ commentCloser <:+: "/ see\n*".toList ∧
    ("a(); /* x */ b() /".toList.getLast? = some '/' → "/ c();\nd();".toList.head? ≠ some '*') ∧
    IsInvisible "a(); /* x */ b() /".toList "/ see\n*".toList "/ c();\nd();".toList := by
  have hu : ClosesComments "a(); /* x */ b() /".toList :=
    @ClosesComments.comment "a(); ".toList "/* x */".toList " b() /".toList
      (isFirstComment_iff.2 ⟨by decide, " x ".toList, by decide, by decide⟩) (.code (by decide))
  have hc : ¬ commentCloser <:+: "/ see\n*".toList := by decide
  have hseam : "a(); /* x */ b() /".toList.getLast? = some '/' →
      "/ c();\nd();".toList.head? ≠ some '*' := by decide
  exact ⟨hu, hc, hseam, blockComment_invisible hu hc hseam⟩

end CodeChart
