import CodeChart.Proofs.Source.Strip
import Mathlib.Data.List.Basic

/-!
# The rows of a text

* `Rows`                  a text cut at its line ends;
* `Rows.map_chars_strips`   the logical lines are the rows of what is left of a text;
* `strips_append_line`    a line end parts the rows in front of it from those behind it;
* `exists_last_strip`     characters behind a text go on with its last row;
* `Ascending`             characters whose lines go up, and up at a line end;
* `Ascending.strips_lines`   then the numbers of the logical lines go up strictly.
-/

namespace CodeChart

/-! ## rows -/

/-- the line ends belong to no row -/
inductive Rows {α : Type} (char : α → Char) : List α → List (List α) → Prop
  | last {row : List α} (h : ∀ a ∈ row, char a ≠ '\n') : Rows char row [row]
  | line {row rest : List α} {a : α} {rows : List (List α)} (h : ∀ a ∈ row, char a ≠ '\n')
      (ha : char a = '\n') (hr : Rows char rest rows) : Rows char (row ++ a :: rest) (row :: rows)

section
variable {α β : Type} {char : α → Char}

theorem Rows.cons {t row : List α} {rows : List (List α)} {a : α} (ha : char a ≠ '\n')
    (h : Rows char t (row :: rows)) : Rows char (a :: t) ((a :: row) :: rows) := by
  have hall : ∀ {row : List α}, (∀ b ∈ row, char b ≠ '\n') → ∀ b ∈ a :: row, char b ≠ '\n' := by
    intro row hrow b hb
    rcases List.mem_cons.1 hb with rfl | hb
    · exact ha
    · exact hrow b hb
  cases h with
  | last hrow => exact .last (hall hrow)
  | line hrow hb hr => exact .line (hall hrow) hb hr

theorem exists_rows_cons (char : α → Char) (t : List α) :
    ∃ row rows, Rows char t (row :: rows) := by
  induction t with
  | nil => exact ⟨[], [], .last fun _ h => absurd h List.not_mem_nil⟩
  | cons a t ih =>
    obtain ⟨row, rows, h⟩ := ih
    by_cases ha : char a = '\n'
    · exact ⟨[], row :: rows,
        @Rows.line _ char [] t a _ (fun _ h => absurd h List.not_mem_nil) ha h⟩
    · exact ⟨a :: row, rows, h.cons ha⟩

theorem exists_rows (char : α → Char) (t : List α) : ∃ rows, Rows char t rows := by
  obtain ⟨row, rows, h⟩ := exists_rows_cons char t
  exact ⟨row :: rows, h⟩

theorem Rows.map {charβ : β → Char} {f : α → β} (hf : ∀ a, charβ (f a) = char a) {t : List α}
    {rows : List (List α)} (h : Rows char t rows) :
    Rows charβ (t.map f) (rows.map (List.map f)) := by
  have hall : ∀ {row : List α}, (∀ a ∈ row, char a ≠ '\n') → ∀ b ∈ row.map f, charβ b ≠ '\n' := by
    intro row hrow b hb
    obtain ⟨a, ha, rfl⟩ := List.mem_map.1 hb
    rw [hf]
    exact hrow a ha
  induction h with
  | last h => exact .last (hall h)
  | line h ha _ ih =>
    rw [List.map_append, List.map_cons, List.map_cons]
    exact .line (hall h) (by rw [hf, ha]) ih

end

/-! ## lines of a text -/

theorem char_of_mem_locate {n : Nat} {t : Text} (h : '\n' ∉ t) :
    ∀ a ∈ locate n t, a.char ≠ '\n' := by
  intro a ha hn
  refine h ?_
  rw [← map_char_locate n t, ← hn]
  exact List.mem_map_of_mem ha

theorem locate_line (n : Nat) (t rest : Text) :
    locate n (t ++ '\n' :: rest)
      = locate n t ++ ⟨'\n', n + newlines t⟩ :: locate (n + newlines t + 1) rest :=
  locate_append n t ('\n' :: rest)

/-! ## strips -/

theorem strips_row {row : List Located} (h : ∀ a ∈ row, a.char ≠ '\n') (n : Nat) :
    strips n row = [⟨n, row⟩] := by
  induction row with
  | nil => rfl
  | cons a row ih =>
    obtain ⟨ha, hrow⟩ := List.forall_mem_cons.1 h
    rw [strips, if_neg ha, ih hrow]

theorem strips_row_append {row : List Located} (h : ∀ a ∈ row, a.char ≠ '\n') (n : Nat)
    {a : Located} (ha : a.char = '\n') (rest : List Located) :
    strips n (row ++ a :: rest) = ⟨n, row⟩ :: strips (a.line + 1) rest := by
  induction row with
  | nil => rw [List.nil_append, strips, if_pos ha]
  | cons b row ih =>
    obtain ⟨hb, hrow⟩ := List.forall_mem_cons.1 h
    rw [List.cons_append, strips, if_neg hb, ih hrow]

theorem Rows.map_chars_strips {t : List Located} {rows : List (List Located)}
    (h : Rows Located.char t rows) (n : Nat) : (strips n t).map Strip.chars = rows := by
  induction h generalizing n with
  | last h => rw [strips_row h]; rfl
  | line h ha _ ih => rw [strips_row_append h n ha, List.map_cons, ih]

theorem strips_append_line (n : Nat) (t : List Located) {a : Located} (ha : a.char = '\n')
    (rest : List Located) : strips n (t ++ a :: rest) = strips n t ++ strips (a.line + 1) rest := by
  obtain ⟨rows, h⟩ := exists_rows Located.char t
  induction h generalizing n with
  | last h => rw [strips_row_append h n ha, strips_row h]; rfl
  | line h hb _ ih =>
    rw [List.append_assoc, List.cons_append, strips_row_append h n hb, strips_row_append h n hb, ih]
    rfl

/-- a text ends in a row, and what follows the text goes on with this row -/
theorem exists_last_strip (n : Nat) (t : List Located) :
    ∃ (more : List Strip) (s : Strip), s.chars <:+ t ∧
      ∀ row : List Located, (∀ b ∈ row, b.char ≠ '\n') →
        strips n (t ++ row) = more ++ [⟨s.opened, s.chars ++ row⟩] := by
  obtain ⟨rows, h⟩ := exists_rows Located.char t
  induction h generalizing n with
  | @last last hlast =>
    refine ⟨[], ⟨n, last⟩, List.suffix_refl last, fun row hrow => ?_⟩
    apply strips_row
    intro b hb
    rcases List.mem_append.1 hb with hb | hb
    · exact hlast b hb
    · exact hrow b hb
  | @line line t c rows hline hc _ ih =>
    obtain ⟨more, s, hs, hall⟩ := ih (c.line + 1)
    refine ⟨⟨n, line⟩ :: more, s, ?_, fun row hrow => ?_⟩
    · exact (hs.trans (List.suffix_cons c t)).trans (List.suffix_append line _)
    · rw [List.append_assoc, List.cons_append, strips_row_append hline n hc, hall row hrow,
        List.cons_append]

/-! ## lines that go up -/

/-- from `n` on and up to `last` -/
structure Ascending (n last : Nat) (t : List Located) : Prop where
  rises : t.Pairwise fun a b => nextLine a.line a.char ≤ b.line
  lower : ∀ a ∈ t, n ≤ a.line
  upper : ∀ a ∈ t, nextLine a.line a.char ≤ last

theorem le_nextLine (n : Nat) (c : Char) : n ≤ nextLine n c := by
  unfold nextLine
  split <;> omega

theorem Ascending.sublist {n last : Nat} {s t : List Located} (h : Ascending n last t)
    (hs : s.Sublist t) : Ascending n last s :=
  ⟨h.rises.sublist hs, fun a ha => h.lower a (hs.subset ha), fun a ha => h.upper a (hs.subset ha)⟩

theorem ascending_locate (n : Nat) (t : Text) : Ascending n (n + newlines t) (locate n t) := by
  induction t generalizing n with
  | nil => exact ⟨.nil, fun _ h => absurd h List.not_mem_nil, fun _ h => absurd h List.not_mem_nil⟩
  | cons c t ih =>
    have hlast : nextLine n c + newlines t = n + newlines (c :: t) := by
      by_cases h : c = '\n'
      · simp only [nextLine, newlines, h, if_pos, List.count_cons_self]
        omega
      · simp [nextLine, newlines, h]
    have hrest := ih (nextLine n c)
    rw [hlast] at hrest
    refine ⟨List.pairwise_cons.2 ⟨hrest.lower, hrest.rises⟩, ?_, ?_⟩
    · intro a ha
      rcases List.mem_cons.1 ha with rfl | ha
      · exact Nat.le_refl n
      · exact Nat.le_trans (le_nextLine n c) (hrest.lower a ha)
    · intro a ha
      rcases List.mem_cons.1 ha with rfl | ha
      · show nextLine n c ≤ _
        omega
      · exact hrest.upper a ha

theorem Ascending.after_line {n last : Nat} {row rest : List Located} {a : Located}
    (h : Ascending n last (row ++ a :: rest)) (ha : a.char = '\n') :
    (∀ b ∈ row, b.line ≤ a.line) ∧ a.line + 1 ≤ last ∧ Ascending (a.line + 1) last rest := by
  have hstep : nextLine a.line a.char = a.line + 1 := if_pos ha
  obtain ⟨_, hrest, hcross⟩ := List.pairwise_append.1 h.rises
  obtain ⟨hnext, hrises⟩ := List.pairwise_cons.1 hrest
  have hup := h.upper a (List.mem_append_right row List.mem_cons_self)
  rw [hstep] at hup hnext
  refine ⟨fun b hb => ?_, hup, hrises, hnext, fun b hb => ?_⟩
  · exact Nat.le_trans (le_nextLine b.line b.char) (hcross b hb a List.mem_cons_self)
  · exact h.upper b (List.mem_append_right row (List.mem_cons_of_mem a hb))

/-! ## the number of a strip -/

/-- characters behind the first visible one do not change the number -/
theorem Strip.line_append {n : Nat} {t w : List Located}
    (h : ∃ c ∈ t.map Located.char, isBlank c = false) :
    Strip.line ⟨n, t ++ w⟩ = Strip.line ⟨n, t⟩ := by
  obtain ⟨c, hc, hv⟩ := h
  obtain ⟨a, ha, rfl⟩ := List.mem_map.1 hc
  have hsome : (t.find? fun a => !isBlank a.char).isSome = true :=
    List.find?_isSome.2 ⟨a, ha, by rw [hv]; rfl⟩
  rw [Strip.line, Strip.line, List.find?_append, Option.or_of_isSome hsome]

theorem line_of_mem_locate {n : Nat} {l : Text} (h : '\n' ∉ l) :
    ∀ a ∈ locate n l, a.line = n := by
  intro a ha
  have hcount : newlines l = 0 := List.count_eq_zero.2 h
  have hlower := (ascending_locate n l).lower a ha
  have hupper := (ascending_locate n l).upper a ha
  have hnext := le_nextLine a.line a.char
  omega

theorem logicalLine_of_line {n : Nat} {l : Text} (h : '\n' ∉ l) :
    Strip.logicalLine ⟨n, locate n l⟩ = ⟨n, l⟩ := by
  have hline : Strip.line ⟨n, locate n l⟩ = n := by
    unfold Strip.line
    split
    · rename_i a ha
      exact line_of_mem_locate h a (List.mem_of_find?_eq_some ha)
    · rfl
  rw [Strip.logicalLine, hline, Strip.text, map_char_locate]

/-- the number of a logical line is that of its opening or of one of its characters -/
theorem Strip.line_bounds {s : Strip} {n m : Nat} (ho : n ≤ s.opened ∧ s.opened ≤ m)
    (h : ∀ a ∈ s.chars, n ≤ a.line ∧ a.line ≤ m) : n ≤ s.line ∧ s.line ≤ m := by
  unfold Strip.line
  split
  · rename_i a ha
    exact h a (List.mem_of_find?_eq_some ha)
  · exact ho

theorem Ascending.strips_lines {n last : Nat} {t : List Located} (h : Ascending n last t)
    (hn : n ≤ last) :
    ((strips n t).map Strip.line).Pairwise (· < ·) ∧
      ∀ s ∈ strips n t, n ≤ s.line ∧ s.line ≤ last := by
  obtain ⟨rows, hr⟩ := exists_rows Located.char t
  induction hr generalizing n with
  | last hrow =>
    rw [strips_row hrow]
    refine ⟨List.pairwise_singleton _ _, fun s hs => ?_⟩
    rw [List.mem_singleton.1 hs]
    exact Strip.line_bounds ⟨Nat.le_refl n, hn⟩ fun a ha =>
      ⟨h.lower a ha, Nat.le_trans (le_nextLine a.line a.char) (h.upper a ha)⟩
  | @line row rest a rows hrow ha _ ih =>
    -- this row has a line up to that of its line end, and the rows below begin on the next one
    obtain ⟨hbefore, hup, hafter⟩ := h.after_line ha
    obtain ⟨hpair, hbounds⟩ := ih hafter hup
    have hfirst : n ≤ Strip.line ⟨n, row⟩ ∧ Strip.line ⟨n, row⟩ ≤ a.line :=
      Strip.line_bounds
        ⟨Nat.le_refl n, h.lower a (List.mem_append_right row List.mem_cons_self)⟩
        fun b hb => ⟨h.lower b (List.mem_append_left _ hb), hbefore b hb⟩
    rw [strips_row_append hrow n ha, List.map_cons, List.pairwise_cons]
    refine ⟨⟨fun l hl => ?_, hpair⟩, fun s hs => ?_⟩
    · obtain ⟨s, hs, rfl⟩ := List.mem_map.1 hl
      have := hbounds s hs
      omega
    · rcases List.mem_cons.1 hs with rfl | hs
      · omega
      · have := hbounds s hs
        omega

end CodeChart
