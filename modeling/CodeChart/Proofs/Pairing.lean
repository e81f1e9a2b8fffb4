import Mathlib.Data.List.Perm.Basic

/-!
# Two lists side by side

Nodes stand beside their edges, nodes beside the statements that they are drawn from, and the lines
of one chart beside those of another.

* `getElem?_of_concat_prefix`   what was put at the end stays at its place when more follows;
* `forall₂_of_getElem?`, `exists_of_mem_left`   what is known of entries at the same place, and of
                        an entry of one list;
* `forall₂_of_map_eq`, `map_eq_of_forall₂`   lists with the same images, entry by entry;
* `exists_perm_of_map`   sorting images sorts what they are the images of.
-/

namespace CodeChart

theorem getElem?_of_concat_prefix {α : Type} {xs ys : List α} {x : α} (h : xs ++ [x] <+: ys) :
    ys[xs.length]? = some x := by
  obtain ⟨tail, rfl⟩ := h
  simp

section
variable {α β : Type} {R : α → β → Prop} {xs : List α} {ys : List β}

theorem forall₂_of_getElem? (h : List.Forall₂ R xs ys) {i : Nat} {x : α} {y : β}
    (hx : xs[i]? = some x) (hy : ys[i]? = some y) : R x y := by
  obtain ⟨hi, rfl⟩ := List.getElem?_eq_some_iff.1 hx
  obtain ⟨hj, rfl⟩ := List.getElem?_eq_some_iff.1 hy
  exact h.get hi hj

theorem exists_of_mem_left (h : List.Forall₂ R xs ys) {x : α} (hx : x ∈ xs) :
    ∃ y ∈ ys, R x y := by
  obtain ⟨i, hi⟩ := List.getElem?_of_mem hx
  have hlt : i < ys.length := h.length_eq ▸ (List.getElem?_eq_some_iff.1 hi).1
  exact ⟨ys[i], List.getElem_mem hlt, forall₂_of_getElem? h hi (List.getElem?_eq_getElem hlt)⟩

end

section
variable {α β γ : Type} {R : α → α → Prop} {f : α → β} {g : α → γ} {xs ys : List α}

theorem forall₂_of_map_eq (hf : xs.map f = ys.map f) (hg : xs.map g = ys.map g)
    (h : ∀ x ∈ xs, ∀ y ∈ ys, f x = f y → g x = g y → R x y) : List.Forall₂ R xs ys := by
  induction xs generalizing ys with
  | nil =>
    rw [List.map_nil, eq_comm, List.map_eq_nil_iff] at hf
    rw [hf]
    exact .nil
  | cons x xs ih =>
    cases ys with
    | nil => cases hf
    | cons y ys =>
      obtain ⟨hfx, hfs⟩ := List.cons.inj hf
      obtain ⟨hgx, hgs⟩ := List.cons.inj hg
      refine .cons (h x List.mem_cons_self y List.mem_cons_self hfx hgx) (ih hfs hgs ?_)
      exact fun x hx y hy => h x (List.mem_cons_of_mem _ hx) y (List.mem_cons_of_mem _ hy)

theorem map_eq_of_forall₂ (h : List.Forall₂ R xs ys)
    (hf : ∀ x ∈ xs, ∀ y ∈ ys, R x y → f x = f y) : xs.map f = ys.map f := by
  induction h with
  | nil => rfl
  | cons hxy _ ih =>
    rw [List.map_cons, List.map_cons, hf _ List.mem_cons_self _ List.mem_cons_self hxy, ih]
    exact fun x hx y hy => hf x (List.mem_cons_of_mem _ hx) y (List.mem_cons_of_mem _ hy)

end

theorem exists_perm_of_map {α β : Type} {f : α → β} {ys : List β} {xs : List α}
    (h : ys.Perm (xs.map f)) : ∃ sorted : List α, sorted.Perm xs ∧ ys = sorted.map f := by
  have himages : List.Forall₂ (fun y x => y = f x) (xs.map f) xs :=
    List.forall₂_map_left_iff.2 (List.forall₂_same.2 fun _ _ => rfl)
  obtain ⟨sorted, hsorted, hperm⟩ := List.perm_comp_forall₂ h himages
  refine ⟨sorted, hperm, ?_⟩
  rw [← List.forall₂_eq_eq_eq, List.forall₂_map_right_iff]
  exact hsorted

end CodeChart
