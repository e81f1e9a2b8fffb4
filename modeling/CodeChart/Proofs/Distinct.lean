import Mathlib.Data.List.Nodup
import Mathlib.Data.List.Perm.Basic

/-!
# Lists without repetition

What is taken from a list each one once, and members by their keys.

* `filter_induction`         a list by what is left of its tail when some of it is left out;
* `eraseDups_concat`         one more member, which comes last if it is new;
* `nodup_eraseDups`, `pairwise_eraseDups_map`   a key stands where its first member comes;
* `flatMap_filter_perm`      taken key by key, the members of a list are the same ones;
* `lookup_of_nodup`          what is filed under a key that comes once.
-/

namespace CodeChart

/-! ## leaving out repetitions -/

@[elab_as_elim]
theorem filter_induction {α : Type} {motive : List α → Prop} (nil : motive [])
    (cons : ∀ a l, (∀ p, motive (l.filter p)) → motive (a :: l)) (l : List α) : motive l := by
  induction hn : l.length using Nat.strongRecOn generalizing l with
  | _ n ih =>
    subst hn
    cases l with
    | nil => exact nil
    | cons a l =>
      apply cons
      intro p
      exact ih _ (Nat.lt_succ_of_le (List.length_filter_le p l)) _ rfl

theorem eraseDups_of_nodup {α : Type} [BEq α] [LawfulBEq α] {l : List α} (h : l.Nodup) :
    l.eraseDups = l := by
  induction l with
  | nil => rfl
  | cons a l ih =>
    obtain ⟨ha, hl⟩ := List.nodup_cons.1 h
    have hfilter : l.filter (fun b => !b == a) = l := by
      refine List.filter_eq_self.2 fun b hb => bne_iff_ne.2 ?_
      exact fun heq => ha (heq ▸ hb)
    rw [List.eraseDups_cons, hfilter, ih hl]

theorem eraseDups_concat {α : Type} [BEq α] [LawfulBEq α] (l : List α) (x : α) :
    (l ++ [x]).eraseDups = if x ∈ l then l.eraseDups else l.eraseDups ++ [x] := by
  rw [List.eraseDups_append]
  split
  · rename_i hx
    have hnone : [x].removeAll l = [] := by simp [List.removeAll, hx]
    rw [hnone, List.eraseDups_nil, List.append_nil]
  · rename_i hx
    have hone : [x].removeAll l = [x] := by simp [List.removeAll, hx]
    rw [hone, eraseDups_of_nodup (List.nodup_singleton x)]

theorem nodup_eraseDups {α : Type} [BEq α] [LawfulBEq α] (l : List α) : l.eraseDups.Nodup := by
  induction l using filter_induction with
  | nil => exact List.nodup_nil
  | cons a l ih =>
    have hnew : a ∉ (l.filter fun b => !b == a).eraseDups := by
      rw [List.mem_eraseDups, List.mem_filter, beq_self_eq_true]
      exact fun h => absurd h.2 Bool.false_ne_true
    rw [List.eraseDups_cons]
    exact List.nodup_cons.2 ⟨hnew, ih _⟩

/-- keys come in the order of their first members -/
theorem pairwise_eraseDups_map {α β : Type} [BEq β] [LawfulBEq β] {r : α → α → Prop} {f : α → β}
    {l : List α} (h : l.Pairwise r) : (l.map f).eraseDups.Pairwise fun x y =>
      ∃ a ∈ l, f a = x ∧ ∀ b ∈ l, f b = y → r a b := by
  induction l using filter_induction with
  | nil => exact List.Pairwise.nil
  | cons a l ih =>
    obtain ⟨hfirst, hl⟩ := List.pairwise_cons.1 h
    have hrest : (l.map f).filter (fun y => !y == f a) = (l.filter fun b => !f b == f a).map f :=
      List.filter_map
    have hother : ∀ y ∈ ((l.filter fun b => !f b == f a).map f).eraseDups, y ≠ f a := by
      intro y hy
      obtain ⟨b, hb, rfl⟩ := List.mem_map.1 (List.mem_eraseDups.1 hy)
      exact bne_iff_ne.1 (List.mem_filter.1 hb).2
    rw [List.map_cons, List.eraseDups_cons, hrest]
    refine List.pairwise_cons.2 ⟨fun y hy => ⟨a, List.mem_cons_self, rfl, fun b hb hby => ?_⟩, ?_⟩
    · rcases List.mem_cons.1 hb with rfl | hb
      · exact absurd hby.symm (hother y hy)
      · exact hfirst b hb
    · refine (ih _ (hl.sublist List.filter_sublist)).imp_of_mem ?_
      intro x y _ hy hxy
      obtain ⟨b, hb, hbx, hlater⟩ := hxy
      refine ⟨b, List.mem_cons_of_mem _ (List.mem_of_mem_filter hb), hbx, fun d hd hdy => ?_⟩
      have hne : f d ≠ f a := hdy ▸ hother y hy
      rcases List.mem_cons.1 hd with rfl | hd
      · exact absurd rfl hne
      · exact hlater d (List.mem_filter.2 ⟨hd, bne_iff_ne.2 hne⟩) hdy

/-! ## members by their keys -/

section
variable {α β : Type} [DecidableEq β] {f : α → β} {l : List α}

theorem filter_eq_singleton (h : (l.map f).Nodup) {a : α} (ha : a ∈ l) :
    l.filter (fun b => f b = f a) = [a] := by
  induction l with
  | nil => cases ha
  | cons b l ih =>
    obtain ⟨hb, hl⟩ := List.nodup_cons.1 h
    rcases List.mem_cons.1 ha with rfl | ha
    · have hnone : l.filter (fun b => f b = f a) = [] :=
        List.filter_eq_nil_iff.2 fun c hc heq =>
          hb (of_decide_eq_true heq ▸ List.mem_map_of_mem hc)
      rw [List.filter_cons, if_pos (decide_eq_true rfl), hnone]
    · have hne : ¬ decide (f b = f a) = true := fun heq =>
        hb (of_decide_eq_true heq ▸ List.mem_map_of_mem ha)
      rw [List.filter_cons, if_neg hne, ih hl ha]

theorem flatMap_filter_of_nodup (h : (l.map f).Nodup) :
    ((l.map f).flatMap fun y => l.filter fun b => f b = y) = l := by
  rw [List.flatMap_map]
  calc (l.flatMap fun a => l.filter fun b => f b = f a)
      = l.flatMap fun a => [a] := List.flatMap_congr fun a ha => filter_eq_singleton h ha
    _ = l := List.flatMap_singleton' l

/-- taken key by key, the members of a list are the same ones -/
theorem flatMap_filter_perm {keys : List β} (hkeys : keys.Nodup) (h : ∀ a ∈ l, f a ∈ keys) :
    (keys.flatMap fun y => l.filter fun b => f b = y).Perm l := by
  induction keys generalizing l with
  | nil =>
    cases l with
    | nil => exact List.Perm.refl _
    | cons a l => exact absurd (h a List.mem_cons_self) List.not_mem_nil
  | cons y keys ih =>
    obtain ⟨hy, hkeys⟩ := List.nodup_cons.1 hkeys
    have hrest : ∀ a ∈ l.filter fun b => !decide (f b = y), f a ∈ keys := by
      intro a ha
      obtain ⟨ha, hne⟩ := List.mem_filter.1 ha
      refine (List.mem_cons.1 (h a ha)).resolve_left fun heq => ?_
      rw [decide_eq_true heq] at hne
      cases hne
    have hlater : ∀ z ∈ keys, (l.filter fun b => f b = z)
        = (l.filter fun b => !decide (f b = y)).filter fun b => f b = z := by
      intro z hz
      rw [List.filter_filter]
      apply List.filter_congr
      intro a _
      by_cases haz : f a = z
      · have hne : f a ≠ y := fun hay => hy (hay ▸ haz ▸ hz)
        rw [decide_eq_false hne, decide_eq_true haz]
        rfl
      · rw [decide_eq_false haz]
        rfl
    rw [List.flatMap_cons, List.flatMap_congr hlater]
    exact ((ih hkeys hrest).append_left _).trans (List.filter_append_perm _ l)

end

theorem lookup_of_nodup {α β : Type} [BEq α] [LawfulBEq α] {m : List (α × β)}
    (hm : (m.map Prod.fst).Nodup) {key : α} {v : β} (h : (key, v) ∈ m) :
    m.lookup key = some v := by
  induction m with
  | nil => cases h
  | cons e m ih =>
    obtain ⟨hnew, hm⟩ := List.nodup_cons.1 hm
    rcases List.mem_cons.1 h with rfl | h
    · exact List.lookup_cons_self
    · have hne : key ≠ e.1 := by
        intro heq
        apply hnew
        rw [← heq]
        exact List.mem_map_of_mem h
      rw [List.lookup_cons, beq_eq_false_iff_ne.2 hne]
      exact ih hm h

end CodeChart
