import CodeChart.Proofs.Source.Gluing
import CodeChart.Source.Statement

/-!
# Texts with one statement on each line

* `hasPair`              two characters stand next to each other in a text (`hasPair_iff`);
* `dropComments_locate`  a text in which no block comment opens stays as it is;
* `strips_locate_append` a line of it is a strip, and its number is that of every character;
* `IsWholeLine`          a line that is a statement as it stands;
* `numbered`             statements on successive lines;
* `statements_of_lines`  a text of such lines is read as these statements.
-/

namespace CodeChart

/-! ## neighbours -/

def hasPair (a b : Char) : Text → Bool
  | [] => false
  | c :: rest => (c == a && rest.head? == some b) || hasPair a b rest

theorem hasPair_nil (a b : Char) : hasPair a b [] = false := rfl
theorem hasPair_cons (a b c : Char) (t : Text) :
    hasPair a b (c :: t) = ((c == a && t.head? == some b) || hasPair a b t) := rfl

theorem hasPair_iff {a b : Char} {t : Text} : hasPair a b t = true ↔ [a, b] <:+: t := by
  induction t with
  | nil => simp [hasPair_nil]
  | cons c t ih =>
    rw [hasPair_cons, Bool.or_eq_true, ih, List.infix_cons_iff, pair_prefix_cons]
    simp

/-- a character between two texts that is neither of the pair keeps them apart -/
theorem hasPair_append_cons {a b c : Char} (ha : c ≠ a) (hb : c ≠ b) (s t : Text) :
    hasPair a b (s ++ c :: t) = (hasPair a b s || hasPair a b t) := by
  have hca : (c == a) = false := beq_eq_false_iff_ne.2 ha
  have hcb : (c == b) = false := beq_eq_false_iff_ne.2 hb
  induction s with
  | nil => simp [hasPair_cons, hasPair_nil, hca]
  | cons d s ih =>
    have hhead : ((s ++ c :: t).head? == some b) = (s.head? == some b) := by
      cases s with
      | nil => simp [hcb]
      | cons e s => rfl
    rw [List.cons_append, hasPair_cons, hasPair_cons, ih, hhead, Bool.or_assoc]

theorem hasPair_of_not_mem {a b : Char} {t : Text} (h : a ∉ t) : hasPair a b t = false := by
  induction t with
  | nil => rfl
  | cons c t ih =>
    simp only [List.mem_cons, not_or] at h
    have hc : (c == a) = false := beq_eq_false_iff_ne.2 (Ne.symm h.1)
    rw [hasPair_cons, hc, ih h.2]
    rfl

/-! ## comments -/

theorem dropComments_locate {t : Text} (h : hasPair '/' '*' t = false) (n : Nat) :
    dropComments (locate n t) = locate n t := by
  refine dropComments_of_no_opener fun hin => ?_
  rw [map_char_locate] at hin
  rw [hasPair_iff.2 hin] at h
  cases h

theorem cutLineComment_of_no_mark {t : Text} (h : hasPair '/' '/' t = false) :
    cutLineComment t = t := by
  induction t with
  | nil => rfl
  | cons c t ih =>
    rw [hasPair_cons, Bool.or_eq_false_iff] at h
    have hcut : ¬ (c = '/' ∧ t.head? = some '/') := by
      rintro ⟨rfl, hd⟩
      simp [hd] at h
    rw [cutLineComment, if_neg hcut, ih h.2]

/-! ## logical lines -/

theorem strips_locate {l : Text} (h : '\n' ∉ l) (n m : Nat) :
    strips n (locate m l) = [⟨n, locate m l⟩] :=
  strips_row (char_of_mem_locate h) n

theorem strips_locate_append {l : Text} (h : '\n' ∉ l) (n m : Nat) (rest : Text) :
    strips n (locate m (l ++ '\n' :: rest))
      = ⟨n, locate m l⟩ :: strips (m + 1) (locate (m + 1) rest) := by
  have hcount : newlines l = 0 := List.count_eq_zero.2 h
  rw [locate_line, hcount, strips_row_append (char_of_mem_locate h) n rfl]
  rfl

/-! ## statements -/

structure IsWholeLine (t : Text) : Prop where
  oneLine : '\n' ∉ t
  noBlockComment : hasPair '/' '*' t = false
  noLineComment : hasPair '/' '/' t = false
  trimmed : trim t = t
  single : splitLine t = [t]

/-- one statement on each line, from line `n` on -/
def numbered (n : Nat) : List Text → List Statement
  | [] => []
  | t :: rest => ⟨t, n⟩ :: numbered (n + 1) rest

theorem numbered_nil (n : Nat) : numbered n [] = [] := rfl
theorem numbered_cons (n : Nat) (t : Text) (rest : List Text) :
    numbered n (t :: rest) = ⟨t, n⟩ :: numbered (n + 1) rest := rfl

theorem numbered_append (n : Nat) (a b : List Text) :
    numbered n (a ++ b) = numbered n a ++ numbered (n + a.length) b := by
  induction a generalizing n with
  | nil => rfl
  | cons t a ih =>
    rw [List.cons_append, numbered_cons, numbered_cons, ih, List.cons_append, List.length_cons,
      Nat.add_assoc, Nat.add_comm 1]

theorem map_text_numbered (n : Nat) (ts : List Text) : (numbered n ts).map Statement.text = ts := by
  induction ts generalizing n with
  | nil => rfl
  | cons t ts ih => rw [numbered_cons, List.map_cons, ih]

theorem IsWholeLine.statements {t : Text} (h : IsWholeLine t) (n : Nat) :
    LogicalLine.statements ⟨n, t⟩ = [⟨t, n⟩] := by
  simp [LogicalLine.statements, cutLineComment_of_no_mark h.noLineComment, h.trimmed, h.single]

theorem statements_strips {ls : List Text} (hne : ls ≠ []) (h : ∀ l ∈ ls, IsWholeLine l) (n : Nat) :
    ((strips n (locate n (List.intercalate ['\n'] ls))).map Strip.logicalLine).flatMap
      LogicalLine.statements = numbered n ls := by
  induction ls generalizing n with
  | nil => exact absurd rfl hne
  | cons l ls ih =>
    have hl := h l List.mem_cons_self
    cases ls with
    | nil =>
      rw [List.intercalate_singleton, strips_locate hl.oneLine]
      simp [logicalLine_of_line hl.oneLine, hl.statements, numbered]
    | cons k ls =>
      have hrest := ih (List.cons_ne_nil k ls) (fun l' hl' => h l' (List.mem_cons_of_mem _ hl'))
        (n + 1)
      rw [List.intercalate_cons_cons, List.append_assoc, List.singleton_append,
        strips_locate_append hl.oneLine, List.map_cons, List.flatMap_cons, hrest,
        logicalLine_of_line hl.oneLine, hl.statements, numbered_cons n l]
      rfl

theorem hasPair_intercalate {ls : List Text} (h : ∀ l ∈ ls, hasPair '/' '*' l = false) :
    hasPair '/' '*' (List.intercalate ['\n'] ls) = false := by
  induction ls with
  | nil => rfl
  | cons l ls ih =>
    cases ls with
    | nil =>
      rw [List.intercalate_singleton]
      exact h l List.mem_cons_self
    | cons k ls =>
      rw [List.intercalate_cons_cons, List.append_assoc, List.singleton_append,
        hasPair_append_cons (by decide) (by decide), h l List.mem_cons_self,
        ih fun l' hl' => h l' (List.mem_cons_of_mem _ hl')]
      rfl

theorem statements_of_lines {ls : List Text} (h : ∀ l ∈ ls, IsWholeLine l) :
    statements (List.intercalate ['\n'] ls) = numbered 1 ls := by
  by_cases hne : ls = []
  · rw [hne, statements, logicalLines_eq]
    rfl
  rw [statements, logicalLines_eq,
    dropComments_locate (hasPair_intercalate fun l hl => (h l hl).noBlockComment)]
  exact statements_strips hne h 1

end CodeChart
