import CodeChart.Assoc
import CodeChart.Proofs.Distinct
import Mathlib.Data.List.Induction

/-!
# Values filed under keys

What is pushed onto a map one by one stands there key by key, a key where it first came and its
values in their order.

* `Assoc.push_of_not_mem`, `Assoc.push_of_mem`   the two things that a push can do;
* `Assoc.foldl_push_eq`        values that come in any order of their keys;
* `Assoc.foldl_push_lists`     values that come key by key: a key without values is left out.
-/

namespace CodeChart

namespace Assoc

variable {α β γ : Type} [DecidableEq α]

/-! ## one value -/

section
variable {m : List (α × List β)} {key : α}

theorem push_of_not_mem (h : key ∉ m.map Prod.fst) (v : β) :
    push m key v = m ++ [(key, [v])] := by
  have hpush := push_append_of_not_mem h [] v
  rwa [List.append_nil] at hpush

theorem push_of_mem (hm : (m.map Prod.fst).Nodup) (h : key ∈ m.map Prod.fst) (v : β) :
    push m key v = m.map fun e => if e.1 = key then (key, e.2 ++ [v]) else e := by
  induction m with
  | nil => cases h
  | cons e m ih =>
    obtain ⟨hnew, hm⟩ := List.nodup_cons.1 hm
    rw [push, List.map_cons]
    split
    · rename_i he
      -- the key comes only once
      have hrest : (m.map fun e => if e.1 = key then (key, e.2 ++ [v]) else e) = m := by
        refine (List.map_congr_left fun e' he' => if_neg fun heq => ?_).trans (List.map_id' m)
        exact hnew (he.trans heq.symm ▸ List.mem_map_of_mem he')
      rw [hrest]
    · rename_i he
      rw [ih hm ((List.mem_cons.1 h).resolve_left fun heq => he heq.symm)]

end

/-! ## all values -/

section
variable (key : γ → α) (value : γ → β)

/-- one more value comes last under its own key, and changes nothing under the others -/
theorem values_concat (l : List γ) (x : γ) (k : α) :
    ((l ++ [x]).filter fun y => key y = k).map value
      = (l.filter fun y => key y = k).map value ++ if key x = k then [value x] else [] := by
  rw [List.filter_append, List.map_append, List.filter_singleton]
  by_cases hk : key x = k
  · simp [hk]
  · simp [hk]

variable [BEq α] [LawfulBEq α]

/-- the values of a list by their keys -/
def filed (l : List γ) : List (α × List β) :=
  (l.map key).eraseDups.map fun k => (k, (l.filter fun x => key x = k).map value)

theorem push_filed (l : List γ) (x : γ) :
    push (filed key value l) (key x) (value x) = filed key value (l ++ [x]) := by
  have hkeys : (filed key value l).map Prod.fst = (l.map key).eraseDups := by
    rw [filed, List.map_map]
    exact List.map_id' _
  have hfiled : filed key value (l ++ [x]) = ((l ++ [x]).map key).eraseDups.map fun k =>
      (k, (l.filter fun y => key y = k).map value ++ if key x = k then [value x] else []) :=
    List.map_congr_left fun k _ => congrArg (Prod.mk k) (values_concat key value l x k)
  rw [hfiled, List.map_append, List.map_singleton, eraseDups_concat]
  split
  · rename_i hx
    have hmem : key x ∈ (filed key value l).map Prod.fst := hkeys ▸ List.mem_eraseDups.2 hx
    rw [push_of_mem (hkeys ▸ nodup_eraseDups _) hmem, filed, List.map_map]
    refine List.map_congr_left fun k _ => ?_
    by_cases hk : key x = k
    · simp [hk]
    · simp [hk, Ne.symm hk]
  · -- a new key comes last, with this value alone
    rename_i hx
    have hmem : key x ∉ (filed key value l).map Prod.fst := by
      rw [hkeys, List.mem_eraseDups]
      exact hx
    rw [push_of_not_mem hmem, List.map_append, List.map_singleton, if_pos rfl]
    have hnone : l.filter (fun y => key y = key x) = [] :=
      List.filter_eq_nil_iff.2 fun y hy heq =>
        hx (of_decide_eq_true heq ▸ List.mem_map_of_mem hy)
    rw [hnone]
    refine congrArg₂ _ (List.map_congr_left fun k hk => ?_) rfl
    have hne : key x ≠ k := fun heq => hx (heq ▸ List.mem_eraseDups.1 hk)
    rw [if_neg hne, List.append_nil]

theorem foldl_push_eq (l : List γ) :
    l.foldl (fun m x => push m (key x) (value x)) [] = filed key value l := by
  induction l using List.reverseRecOn with
  | nil => rfl
  | append_singleton l x ih => rw [List.foldl_concat, ih, push_filed]

end

/-- values that all have one key, which is new -/
theorem foldl_push_of_not_mem {m : List (α × List β)} {key : α} (h : key ∉ m.map Prod.fst)
    (vs : List β) : vs.foldl (fun m v => push m key v) m
      = m ++ [(key, vs)].filter fun e => !e.2.isEmpty := by
  induction vs using List.reverseRecOn with
  | nil => exact (List.append_nil m).symm
  | append_singleton vs v ih =>
    have hlast : push ([(key, vs)].filter fun e => !e.2.isEmpty) key v = [(key, vs ++ [v])] := by
      cases vs <;> simp [push]
    rw [List.foldl_concat, ih, push_append_of_not_mem h, hlast]
    simp

theorem foldl_push_lists {key : γ → α} (values : γ → List β) {l : List γ}
    (h : (l.map key).Nodup) :
    l.foldl (fun m x => (values x).foldl (fun m v => push m (key x) v) m) []
      = (l.map fun x => (key x, values x)).filter fun e => !e.2.isEmpty := by
  induction l using List.reverseRecOn with
  | nil => rfl
  | append_singleton l x ih =>
    rw [List.map_append, List.map_singleton] at h
    obtain ⟨hl, _, hdisjoint⟩ := List.nodup_append.1 h
    have hnew : key x ∉ ((l.map fun x => (key x, values x)).filter fun e => !e.2.isEmpty).map
        Prod.fst := by
      intro hmem
      obtain ⟨e, he, hkey⟩ := List.mem_map.1 hmem
      obtain ⟨y, hy, rfl⟩ := List.mem_map.1 (List.mem_of_mem_filter he)
      exact hdisjoint _ (List.mem_map_of_mem hy) _ List.mem_cons_self hkey
    rw [List.foldl_concat, ih hl, foldl_push_of_not_mem hnew, List.map_append,
      List.map_singleton, List.filter_append]

end Assoc

end CodeChart
