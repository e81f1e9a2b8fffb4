import CodeChart.Mermaid
import CodeChart.Proofs.Text.Split

/-!
# Reading lines back

The lines of a chart are read back from its text, and the numbers in a line from the line.

* `splitOn_unlines`          the lines of a text that was written line by line;
* `append_cons_injective`    the first occurrence of a member parts a list in one way;
* `decimal_injective`, `not_mem_decimal`   a number is known by its digits;
* `decimal_append_injective` and stands before something that is no digit in one way.
-/

namespace CodeChart

open Mermaid

/-- the first occurrence of a member parts a list in one way -/
theorem append_cons_injective {α : Type} {c : α} {a b x y : List α} (ha : c ∉ a) (hb : c ∉ b)
    (h : a ++ c :: x = b ++ c :: y) : a = b ∧ x = y := by
  induction a generalizing b with
  | nil =>
    cases b with
    | nil => exact ⟨rfl, (List.cons.inj h).2⟩
    | cons d b => exact absurd ((List.cons.inj h).1 ▸ List.mem_cons_self) hb
  | cons e a ih =>
    cases b with
    | nil => exact absurd ((List.cons.inj h).1 ▸ List.mem_cons_self) ha
    | cons d b =>
      obtain ⟨rfl, hrest⟩ := List.cons.inj h
      obtain ⟨rfl, hxy⟩ := ih (List.not_mem_of_not_mem_cons ha) (List.not_mem_of_not_mem_cons hb)
        hrest
      exact ⟨rfl, hxy⟩

theorem splitOn_unlines {ls : List Text} (h : ∀ l ∈ ls, '\n' ∉ l) :
    splitOn '\n' (unlines ls) = ls ++ [[]] := by
  induction ls with
  | nil => rfl
  | cons l ls ih =>
    obtain ⟨hl, hls⟩ := List.forall_mem_cons.1 h
    rw [unlines_cons, List.splitOn_append_cons_self_of_not_mem hl, ih hls, List.cons_append]

/-! ## numbers -/

theorem decimal_injective : Function.Injective decimal := by
  intro n m h
  have hvalue := congrArg (Nat.ofDigitChars 10 · 0) h
  simpa only [decimal, Nat.ofDigitChars_toDigits (show 1 < 10 by decide) (Nat.le_refl 10)]
    using hvalue

theorem isDigit_of_mem_decimal {c : Char} {n : Nat} (h : c ∈ decimal n) : c.isDigit = true :=
  Nat.isDigit_of_mem_toDigits (by decide) (Nat.le_refl 10) h

theorem not_mem_decimal {c : Char} (hc : c.isDigit = false) (n : Nat) : c ∉ decimal n := by
  intro h
  rw [isDigit_of_mem_decimal h] at hc
  cases hc

theorem decimal_append_injective {n m : Nat} {x y : Text} (hx : x.head?.any Char.isDigit = false)
    (hy : y.head?.any Char.isDigit = false) (h : decimal n ++ x = decimal m ++ y) :
    n = m ∧ x = y := by
  have hdrop : ∀ (k : Nat) {z : Text}, z.head?.any Char.isDigit = false →
      (decimal k ++ z).dropWhile Char.isDigit = z := by
    intro k z hz
    rw [List.dropWhile_append_of_pos fun _ => isDigit_of_mem_decimal]
    cases z with
    | nil => rfl
    | cons c z =>
      apply List.dropWhile_cons_of_neg
      intro hc
      rw [List.head?_cons, Option.any_some, hc] at hz
      cases hz
  have hrest : x = y := by rw [← hdrop n hx, h, hdrop m hy]
  rw [hrest] at h
  exact ⟨decimal_injective (List.append_cancel_right h), hrest⟩

end CodeChart
