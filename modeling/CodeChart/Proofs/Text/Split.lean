import CodeChart.Text.Basic
import Mathlib.Data.List.Infix

/-!
# Texts cut at a separator

What the library's `List.splitOn` does with one character more in front, and with pieces that are
joined.

* `splitOn_cons_self`, `splitOn_cons_of_ne`   a character in front of a text that is cut;
* `splitOn_injective`    what is cut into the same pieces is the same;
* `splitOn_join`         the pieces of texts that are joined, each of which may be cut again;
* `not_mem_of_mem_splitOn`, `isInfix_of_mem_splitOn`   a piece is a part without the separator.
-/

namespace CodeChart

variable {sep : Char}

theorem splitOn_cons_self (sep : Char) (t : Text) :
    splitOn sep (sep :: t) = [] :: splitOn sep t := by
  rw [List.splitOn_cons_eq_if_modifyHead, if_pos (beq_self_eq_true sep)]

theorem splitOn_cons_of_ne {c : Char} (h : c ≠ sep) {t piece : Text} {more : List Text}
    (ht : splitOn sep t = piece :: more) : splitOn sep (c :: t) = (c :: piece) :: more := by
  rw [List.splitOn_cons_eq_if_modifyHead, if_neg (mt beq_iff_eq.1 h), ht, List.modifyHead_cons]

theorem splitOn_injective : Function.Injective (splitOn sep) := fun a b h => by
  have ha : List.intercalate [sep] (splitOn sep a) = a := List.intercalate_splitOn sep
  rw [← ha, h, List.intercalate_splitOn]

theorem intercalate_cons_eq (x : Text) (xs : List Text) :
    List.intercalate [sep] (x :: xs) = x ++ xs.flatMap (sep :: ·) := by
  induction xs generalizing x with
  | nil => rw [List.intercalate_singleton, List.flatMap_nil, List.append_nil]
  | cons y ys ih =>
    rw [List.intercalate_cons_cons, ih, List.flatMap_cons, List.append_assoc]
    rfl

theorem intercalate_append {xs ys : List Text} (hx : xs ≠ []) (hy : ys ≠ []) :
    List.intercalate [sep] (xs ++ ys)
      = List.intercalate [sep] xs ++ sep :: List.intercalate [sep] ys := by
  induction xs with
  | nil => exact absurd rfl hx
  | cons x xs ih =>
    cases xs with
    | nil =>
      obtain ⟨y, more, rfl⟩ := List.exists_cons_of_ne_nil hy
      rw [List.cons_append, List.nil_append, List.intercalate_cons_cons, List.append_assoc,
        List.intercalate_singleton]
      rfl
    | cons x' xs =>
      rw [List.cons_append, List.cons_append, List.intercalate_cons_cons, ← List.cons_append,
        ih (List.cons_ne_nil x' xs), List.intercalate_cons_cons]
      simp only [List.append_assoc]

theorem splitOn_join {xs : List Text} (h : xs ≠ []) :
    splitOn sep (List.intercalate [sep] xs) = xs.flatMap (splitOn sep) := by
  induction xs with
  | nil => exact absurd rfl h
  | cons x xs ih =>
    cases xs with
    | nil => rw [List.intercalate_singleton, List.flatMap_singleton]
    | cons x' xs =>
      rw [List.intercalate_cons_cons, List.append_assoc, List.singleton_append,
        List.splitOn_append_cons_self, ih (List.cons_ne_nil x' xs), List.flatMap_cons (x := x)]

/-! ## one piece -/

theorem not_mem_of_mem_splitOn {t piece : Text} (h : piece ∈ splitOn sep t) :
    sep ∉ piece := by
  induction t generalizing piece with
  | nil =>
    rw [List.mem_singleton.1 h]
    exact List.not_mem_nil
  | cons c t ih =>
    cases hs : splitOn sep t with
    | nil => exact absurd hs (List.splitOn_ne_nil sep t)
    | cons first more =>
      rw [hs] at ih
      by_cases hc : c = sep
      · rw [hc, splitOn_cons_self, hs] at h
        rcases List.mem_cons.1 h with rfl | h
        · exact List.not_mem_nil
        · exact ih h
      · rw [splitOn_cons_of_ne hc hs] at h
        rcases List.mem_cons.1 h with rfl | h
        · rw [List.mem_cons, not_or]
          exact ⟨Ne.symm hc, ih List.mem_cons_self⟩
        · exact ih (List.mem_cons_of_mem _ h)

theorem prefix_of_splitOn {t row : Text} {more : List Text}
    (h : splitOn sep t = row :: more) : row <+: t := by
  induction t generalizing row more with
  | nil =>
    cases h
    exact List.nil_prefix
  | cons c t ih =>
    obtain ⟨first, rows, hs⟩ := List.exists_cons_of_ne_nil (List.splitOn_ne_nil sep t)
    by_cases hc : c = sep
    · rw [hc, splitOn_cons_self] at h
      cases h
      exact List.nil_prefix
    · rw [splitOn_cons_of_ne hc hs] at h
      cases h
      exact (List.prefix_cons_inj c).2 (ih hs)

theorem isInfix_of_mem_splitOn {t row : Text} (h : row ∈ splitOn sep t) :
    row <:+: t := by
  induction t generalizing row with
  | nil => exact (List.mem_singleton.1 h) ▸ List.infix_refl []
  | cons c t ih =>
    obtain ⟨first, rows, hs⟩ := List.exists_cons_of_ne_nil (List.splitOn_ne_nil sep (c :: t))
    rcases List.mem_cons.1 (hs ▸ h) with rfl | hmore
    · exact (prefix_of_splitOn hs).isInfix
    · obtain ⟨first', rows', hs'⟩ := List.exists_cons_of_ne_nil (List.splitOn_ne_nil sep t)
      refine List.infix_cons (ih ?_)
      by_cases hc : c = sep
      · rw [hc, splitOn_cons_self] at hs
        cases hs
        exact hmore
      · rw [splitOn_cons_of_ne hc hs'] at hs
        cases hs
        rw [hs']
        exact List.mem_cons_of_mem _ hmore

end CodeChart
