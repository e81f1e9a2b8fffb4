import CodeChart.Proofs.Builder.Drawn
import CodeChart.Proofs.Source.Pieces

/-!
# Where a logical line comes from

Every character of a source text has a position, and a position has a line.  What is left outside
block comments keeps its positions, so a logical line can be asked where it begins.

* `lineAt`            the line of a position;
* `map_placed`        counting lines while reading gives every character the line of its position;
* `firstVisible`      where a row begins;
* `HasOrigins`        logical lines, statements and nodes have the lines of the rows that they are
                      cut from and drawn from;
* `exists_origins`    every source text has such rows.
-/

namespace CodeChart

/-! ## positions -/

/-- one more than there are line ends in front of it -/
def lineAt (src : Text) (position : Nat) : Nat := 1 + newlines (src.take position)

def placed (src : Text) (x : Char × Nat) : Located := ⟨x.1, lineAt src x.2⟩

theorem char_placed (src : Text) (x : Char × Nat) : (placed src x).char = x.1 := rfl

theorem map_placed_append (before t : Text) :
    (t.zipIdx before.length).map (placed (before ++ t)) = locate (1 + newlines before) t := by
  induction t generalizing before with
  | nil => rfl
  | cons c t ih =>
    have hline : 1 + newlines (before ++ [c]) = nextLine (1 + newlines before) c := by
      by_cases h : c = '\n'
      · simp [newlines, nextLine, h, Nat.add_assoc]
      · simp [newlines, nextLine, h]
    have hhere : placed (before ++ c :: t) (c, before.length) = ⟨c, 1 + newlines before⟩ := by
      rw [placed, lineAt, List.take_left]
    have hrest := ih (before ++ [c])
    rw [hline, List.length_append, List.append_assoc] at hrest
    rw [List.zipIdx_cons, List.map_cons, hhere, locate]
    exact congrArg (_ :: ·) hrest

theorem map_placed (src : Text) : src.zipIdx.map (placed src) = locate 1 src :=
  map_placed_append [] src

/-! ## rows of positions -/

def firstVisible (row : List (Char × Nat)) : Option (Char × Nat) := row.find? fun x => !isBlank x.1

theorem exists_firstVisible {row : List (Char × Nat)}
    (h : ∃ c ∈ row.map Prod.fst, isBlank c = false) : ∃ x, firstVisible row = some x := by
  obtain ⟨c, hc, hv⟩ := h
  obtain ⟨x, hx, rfl⟩ := List.mem_map.1 hc
  exact Option.isSome_iff_exists.1 (List.find?_isSome.2 ⟨x, hx, by rw [hv]; rfl⟩)

/-- a logical line and the row of positions that it consists of -/
structure LogicalLine.ComesFrom (l : LogicalLine) (src : Text) (row : List (Char × Nat)) :
    Prop where
  text : l.text = row.map Prod.fst
  line : ∀ x, firstVisible row = some x → l.line = lineAt src x.2

theorem Strip.comesFrom {s : Strip} {src : Text} {row : List (Char × Nat)}
    (h : s.chars = row.map (placed src)) : s.logicalLine.ComesFrom src row := by
  constructor
  · show s.chars.map Located.char = _
    rw [h, List.map_map]
    rfl
  · intro x hx
    have hfind : s.chars.find? (fun a => !isBlank a.char) = some (placed src x) := by
      rw [h, List.find?_map]
      exact congrArg (Option.map (placed src)) hx
    show s.line = _
    rw [Strip.line, hfind]
    rfl

theorem Uncommented.dropComments_locate {src : Text} {kept : List (Char × Nat)}
    (h : Uncommented Prod.fst src.zipIdx kept) :
    dropComments (locate 1 src) = kept.map (placed src) := by
  rw [← map_placed, (h.map (char_placed src)).dropComments_eq]

theorem logicalLines_comeFrom {src : Text} {kept : List (Char × Nat)}
    {rows : List (List (Char × Nat))} (hk : Uncommented Prod.fst src.zipIdx kept)
    (hr : Rows Prod.fst kept rows) :
    List.Forall₂ (fun row l => LogicalLine.ComesFrom l src row) rows (logicalLines src) := by
  have hchars := (hr.map (char_placed src)).map_chars_strips 1
  rw [← hk.dropComments_locate] at hchars
  have hall : List.Forall₂ (fun row s => Strip.chars s = List.map (placed src) row) rows
      (strips 1 (dropComments (locate 1 src))) := by
    rw [← List.forall₂_map_right_iff (R := fun row chars => chars = List.map (placed src) row),
      hchars, List.forall₂_map_right_iff, List.forall₂_same]
    exact fun _ _ => rfl
  rw [logicalLines_eq, List.forall₂_map_right_iff]
  exact hall.imp fun _ _ => Strip.comesFrom

theorem LogicalLine.ComesFrom.statements {l : LogicalLine} {src : Text} {row : List (Char × Nat)}
    (h : l.ComesFrom src row) {s : Statement} (hs : s ∈ l.statements) :
    s.text <:+: cutLineComment (row.map Prod.fst) ∧
      ∃ x, firstVisible row = some x ∧ s.line = lineAt src x.2 := by
  have hv := LogicalLine.exists_visible hs
  have hin := (LogicalLine.piece_of_mem hs).2
  obtain ⟨t, _, rfl⟩ := List.mem_map.1 hs
  rw [h.text] at hin hv
  obtain ⟨x, hx⟩ := exists_firstVisible hv
  exact ⟨hin, x, hx, h.line x hx⟩

/-! ## lines in order -/

theorem logicalLines_lines (src : Text) :
    ((logicalLines src).map LogicalLine.line).Pairwise (· < ·) ∧
      ∀ l ∈ logicalLines src, 1 ≤ l.line ∧ l.line ≤ 1 + newlines src := by
  have hasc : Ascending 1 (1 + newlines src) (dropComments (locate 1 src)) :=
    (ascending_locate 1 src).sublist (outsideComments_sublist _ _)
  obtain ⟨hpair, hbounds⟩ := hasc.strips_lines (Nat.le_add_right 1 _)
  rw [logicalLines_eq]
  constructor
  · rw [List.map_map]
    exact hpair
  · intro l hl
    obtain ⟨s, hs, rfl⟩ := List.mem_map.1 hl
    exact hbounds s hs

theorem statements_lines (src : Text) :
    ((statements src).map Statement.line).Pairwise (· ≤ ·) := by
  have hline : ∀ {l : LogicalLine} {s : Statement}, s ∈ l.statements → s.line = l.line := by
    intro l s hs
    obtain ⟨t, _, rfl⟩ := List.mem_map.1 hs
    rfl
  rw [List.pairwise_map, statements, List.pairwise_flatMap]
  refine ⟨fun l _ => List.pairwise_of_forall_mem_list fun s hs r hr => ?_, ?_⟩
  · rw [hline hs, hline hr]
  · refine (List.pairwise_map.1 (logicalLines_lines src).1).imp fun {l m} hlt s hs r hr => ?_
    rw [hline hs, hline hr]
    exact Nat.le_of_lt hlt

theorem drawn_lines {src : Text} {drawn : List Node} {sources : List Statement}
    (hs : sources.Sublist (statements src)) (hd : List.Forall₂ Node.DrawnFrom drawn sources) :
    (drawn.map Node.line).Pairwise (· ≤ ·) := by
  rw [lines_of_drawn hd, List.pairwise_map]
  have hrise := (statements_lines src).sublist (hs.map Statement.line)
  exact (List.pairwise_map.1 hrise).imp Int.ofNat_le.2

/-! ## origins -/

/-- `kept` holds what is left of the source outside block comments, at its positions, and `rows` the
rows that this is cut into -/
structure HasOrigins (src : Text) (kept : List (Char × Nat)) (rows : List (List (Char × Nat))) :
    Prop where
  uncommented : Uncommented Prod.fst src.zipIdx kept
  unique : ∀ k, Uncommented Prod.fst src.zipIdx k → k = kept
  cut : Rows Prod.fst kept rows
  joined : List.intercalate ['\n'] ((logicalLines src).map LogicalLine.text) = kept.map Prod.fst
  lines : List.Forall₂ (fun row l => LogicalLine.ComesFrom l src row) rows (logicalLines src)
  rising : ((logicalLines src).map LogicalLine.line).Pairwise (· < ·)
  bounds : ∀ l ∈ logicalLines src, 1 ≤ l.line ∧ l.line ≤ 1 + newlines src
  statements : ∃ groups : List (List Statement), statements src = groups.flatten ∧
    List.Forall₂ (fun row group => ∀ s ∈ group, s.text <:+: cutLineComment (row.map Prod.fst) ∧
      ∃ x, firstVisible row = some x ∧ s.line = lineAt src x.2) rows groups
  nodes : ∀ b : Builder, ∃ drawn sources, (b.run src).nodes = b.nodes ++ drawn ∧
    sources.Sublist (CodeChart.statements src) ∧ List.Forall₂ Node.DrawnFrom drawn sources ∧
    (drawn.map Node.line).Pairwise (· ≤ ·)

/-- **line numbers refer to the source text**: whatever is read or drawn has the line on which the
first visible character of its row stands -/
theorem exists_origins (src : Text) : ∃ kept rows, HasOrigins src kept rows := by
  obtain ⟨kept, hk⟩ := exists_uncommented Prod.fst src.zipIdx
  obtain ⟨rows, hr⟩ := exists_rows Prod.fst kept
  have hlines := logicalLines_comeFrom hk hr
  obtain ⟨hrising, hbounds⟩ := logicalLines_lines src
  have hinj : Function.Injective fun x : Char × Nat => (⟨x.1, x.2⟩ : Located) :=
    fun x y h => Prod.ext (congrArg Located.char h) (congrArg Located.line h)
  refine ⟨kept, rows, hk, fun k h => h.unique (fun _ => rfl) hinj hk, hr, ?_, hlines,
    hrising, hbounds, ⟨(logicalLines src).map LogicalLine.statements, rfl, ?_⟩, fun b => ?_⟩
  · rw [logicalLines_text, hk.dropComments_locate, List.map_map]
    rfl
  · rw [List.forall₂_map_right_iff]
    exact hlines.imp fun _ _ h _ => h.statements
  · obtain ⟨drawn, sources, hnodes, hsub, hdrawn⟩ := b.run_nodes src
    exact ⟨drawn, sources, hnodes, hsub, hdrawn, drawn_lines hsub hdrawn⟩

example : logicalLines "a\n/*\n*/b\nc".toList
    = [⟨1, "a".toList⟩, ⟨3, "b".toList⟩, ⟨4, "c".toList⟩] := by decide +kernel

end CodeChart
