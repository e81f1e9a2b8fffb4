import CodeChart.Text.Basic

/-!
# The order of texts

Texts are ordered by the code points at the first place where they differ.

* `textLe_total`, `textLe_trans`, `textLe_antisymm`   this is a linear order;
* `textLe_append`        what two texts share in front does not matter to it;
* `lt_of_textLe`         it is the lexicographic one; a sorted list without repetitions ascends
                         strictly (`pairwise_lt_of_nodup`).
-/

namespace CodeChart

theorem textLe_total (a b : Text) : (textLe a b || textLe b a) = true := by
  induction a generalizing b with
  | nil => rfl
  | cons c a ih =>
    cases b with
    | nil => rfl
    | cons d b =>
      simp only [textLe]
      by_cases h : c = d
      · rw [if_pos h, if_pos h.symm]
        exact ih b
      · have hne : c.toNat ≠ d.toNat := fun heq => h (Char.toNat_inj.1 heq)
        rw [if_neg h, if_neg (Ne.symm h), Bool.or_eq_true, Nat.blt_eq, Nat.blt_eq]
        omega

theorem textLe_trans (a b c : Text) (hab : textLe a b = true) (hbc : textLe b c = true) :
    textLe a c = true := by
  induction a generalizing b c with
  | nil => rfl
  | cons x a ih =>
    cases b with
    | nil => cases hab
    | cons y b =>
      cases c with
      | nil => cases hbc
      | cons z c =>
        simp only [textLe] at hab hbc ⊢
        by_cases hxy : x = y
        · subst hxy
          rw [if_pos rfl] at hab
          by_cases hxz : x = z
          · rw [if_pos hxz] at hbc ⊢
            exact ih b c hab hbc
          · rw [if_neg hxz] at hbc ⊢
            exact hbc
        · rw [if_neg hxy, Nat.blt_eq] at hab
          by_cases hyz : y = z
          · subst hyz
            rw [if_neg hxy, Nat.blt_eq]
            exact hab
          · rw [if_neg hyz, Nat.blt_eq] at hbc
            have hxz : x ≠ z := fun h => by rw [h] at hab; omega
            rw [if_neg hxz, Nat.blt_eq]
            omega

theorem textLe_antisymm (a b : Text) (hab : textLe a b = true) (hba : textLe b a = true) :
    a = b := by
  induction a generalizing b with
  | nil =>
    cases b with
    | nil => rfl
    | cons d b => cases hba
  | cons c a ih =>
    cases b with
    | nil => cases hab
    | cons d b =>
      simp only [textLe] at hab hba
      by_cases h : c = d
      · rw [if_pos h] at hab
        rw [if_pos h.symm] at hba
        rw [h, ih b hab hba]
      · rw [if_neg h, Nat.blt_eq] at hab
        rw [if_neg (Ne.symm h), Nat.blt_eq] at hba
        omega

theorem textLe_append (front a b : Text) : textLe (front ++ a) (front ++ b) = textLe a b := by
  induction front with
  | nil => rfl
  | cons c front ih =>
    show (if c = c then textLe (front ++ a) (front ++ b) else c.toNat.blt c.toNat) = _
    rw [if_pos rfl, ih]

/-- the order of texts is the lexicographic one -/
theorem lt_of_textLe {a b : Text} (h : textLe a b = true) (hne : a ≠ b) : a < b := by
  induction a generalizing b with
  | nil =>
    cases b with
    | nil => exact absurd rfl hne
    | cons d b => exact List.nil_lt_cons d b
  | cons c a ih =>
    cases b with
    | nil => cases h
    | cons d b =>
      rw [textLe] at h
      apply List.cons_lt_cons_iff.2
      by_cases hcd : c = d
      · subst hcd
        rw [if_pos rfl] at h
        exact .inr ⟨rfl, ih h fun hab => hne (congrArg _ hab)⟩
      · rw [if_neg hcd, Nat.blt_eq] at h
        exact .inl h

theorem pairwise_lt_of_nodup {α : Type} {key : α → Text} {l : List α}
    (h : l.Pairwise fun a b => textLe (key a) (key b) = true) (hkeys : (l.map key).Nodup) :
    l.Pairwise fun a b => key a < key b :=
  (h.and (List.pairwise_map.1 hkeys)).imp fun hab => lt_of_textLe hab.1 hab.2

end CodeChart
