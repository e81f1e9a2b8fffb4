import CodeChart.Text.Basic
import Mathlib.Data.List.Infix
import Mathlib.Data.List.TakeWhile

/-!
# Texts in pieces

* `visible`          a text without its blanks;
* `IsTrimmed`        a text with visible characters at both ends (`isTrimmed_iff`); trimming leaves
                     one, or nothing (`isTrimmed_trim`);
* `Covers`           trimmed pieces that stand in a text one after the other, with nothing but
                     blanks before, between and after them;
* `Covers.append`, `Covers.refine`   pieces of two texts, and pieces of pieces;
* `Covers.visible_eq`, `Covers.isInfix`   such pieces lose and double nothing of the text, and each
                     of them is a part of it.
-/

namespace CodeChart

/-! ## visible characters -/

def visible (t : Text) : Text := t.filter fun c => !isBlank c

theorem visible_append (a b : Text) : visible (a ++ b) = visible a ++ visible b :=
  List.filter_append a b

theorem visible_of_allBlank {t : Text} (h : allBlank t = true) : visible t = [] := by
  rw [visible, List.filter_eq_nil_iff]
  intro c hc
  simp [List.all_eq_true.1 h c hc]

theorem visible_flatMap {α : Type} (l : List α) (f : α → Text) :
    visible (l.flatMap f) = l.flatMap fun x => visible (f x) := by
  induction l with
  | nil => rfl
  | cons x l ih => rw [List.flatMap_cons, visible_append, ih, List.flatMap_cons]

theorem allBlank_append {a b : Text} (ha : allBlank a = true) (hb : allBlank b = true) :
    allBlank (a ++ b) = true := by
  rw [allBlank, List.all_append, Bool.and_eq_true]
  exact ⟨ha, hb⟩

/-! ## trimming -/

theorem exists_trimLeft (t : Text) : ∃ gap, allBlank gap = true ∧ t = gap ++ trimLeft t :=
  ⟨t.takeWhile isBlank, List.all_takeWhile, List.takeWhile_append_dropWhile.symm⟩

theorem exists_trimRight (t : Text) : ∃ gap, allBlank gap = true ∧ t = trimRight t ++ gap := by
  obtain ⟨gap, hgap, ht⟩ := exists_trimLeft t.reverse
  refine ⟨gap.reverse, ?_, ?_⟩
  · rw [allBlank, List.all_reverse]
    exact hgap
  · have hrev := congrArg List.reverse ht
    rwa [List.reverse_reverse, List.reverse_append] at hrev

theorem exists_trim (t : Text) :
    ∃ before after, allBlank before = true ∧ allBlank after = true ∧
      t = before ++ (trim t ++ after) := by
  obtain ⟨before, hb, ht⟩ := exists_trimLeft t
  obtain ⟨after, ha, hr⟩ := exists_trimRight (trimLeft t)
  refine ⟨before, after, hb, ha, ?_⟩
  rw [trim, ← hr]
  exact ht

theorem visible_trim (t : Text) : visible (trim t) = visible t := by
  obtain ⟨before, after, hb, ha, ht⟩ := exists_trim t
  conv_rhs => rw [ht]
  rw [visible_append, visible_append, visible_of_allBlank hb, visible_of_allBlank ha,
    List.nil_append, List.append_nil]

theorem trimLeft_of_allBlank {t : Text} (h : allBlank t = true) : trimLeft t = [] := by
  rw [trimLeft, List.dropWhile_eq_nil_iff]
  exact List.all_eq_true.1 h

theorem trim_of_allBlank {t : Text} (h : allBlank t = true) : trim t = [] := by
  rw [trim, trimLeft_of_allBlank h]
  rfl

theorem isEmpty_trim (t : Text) : (trim t).isEmpty = allBlank t := by
  rw [Bool.eq_iff_iff, List.isEmpty_iff]
  constructor
  · intro h
    have hnone := visible_trim t
    rw [h] at hnone
    refine List.all_eq_true.2 fun c hc => ?_
    have hc' := List.filter_eq_nil_iff.1 hnone.symm c hc
    rwa [Bool.not_eq_true', Bool.not_eq_false] at hc'
  · exact trim_of_allBlank

/-- a part of a text without one of its visible characters does not look the same -/
theorem trim_ne_of_visible {v x y : Text} {c : Char} (hc : isBlank c = false) (h : v <+: x) :
    trim v ≠ trim (x ++ c :: y) := by
  intro heq
  obtain ⟨w, rfl⟩ := h
  have hvisible := congrArg visible heq
  rw [visible_trim, visible_trim, List.append_assoc, visible_append] at hvisible
  have hrest := List.append_cancel_left ((List.append_nil _).trans hvisible)
  rw [visible_append] at hrest
  have hnone := (List.append_eq_nil_iff.1 hrest.symm).2
  have hshown : visible (c :: y) = c :: visible y := List.filter_cons_of_pos (by simp [hc])
  rw [hshown] at hnone
  cases hnone

theorem trim_isInfix (t : Text) : trim t <:+: t := by
  obtain ⟨before, after, _, _, ht⟩ := exists_trim t
  exact ⟨before, after, by rw [List.append_assoc, ← ht]⟩

theorem trimRight_concat_of_blank {c : Char} (h : isBlank c = true) (t : Text) :
    trimRight (t ++ [c]) = trimRight t := by
  simp [trimRight, h]

structure IsTrimmed (t : Text) : Prop where
  nonempty : t ≠ []
  trimmed : trim t = t

theorem IsTrimmed.trimLeft_eq {t : Text} (h : IsTrimmed t) : trimLeft t = t := by
  refine List.IsSuffix.eq_of_length (List.dropWhile_suffix _) ?_
  have h1 := length_trimRight_le (trimLeft t)
  have h2 := length_trimLeft_le t
  have h3 := congrArg List.length h.trimmed
  rw [trim] at h3
  show (trimLeft t).length = t.length
  omega

theorem IsTrimmed.trimRight_eq {t : Text} (h : IsTrimmed t) : trimRight t = t := by
  have ht := h.trimmed
  rwa [trim, h.trimLeft_eq] at ht

/-- it begins and ends with a visible character -/
theorem isTrimmed_iff {t : Text} : IsTrimmed t ↔
    (∃ c, t.head? = some c ∧ isBlank c = false) ∧ ∃ c, t.getLast? = some c ∧ isBlank c = false := by
  constructor
  · intro h
    constructor
    · cases t with
      | nil => exact absurd rfl h.nonempty
      | cons c r =>
        refine ⟨c, rfl, Bool.eq_false_iff.2 fun hc => ?_⟩
        have hle := length_trimLeft_le r
        rw [← trimLeft_cons_of_blank hc, h.trimLeft_eq] at hle
        exact Nat.not_succ_le_self _ hle
    · obtain ⟨r, c, rfl⟩ := (List.eq_nil_or_concat' t).resolve_left h.nonempty
      refine ⟨c, List.getLast?_concat, Bool.eq_false_iff.2 fun hc => ?_⟩
      have hle := length_trimRight_le r
      rw [← trimRight_concat_of_blank hc, h.trimRight_eq, List.length_append] at hle
      exact Nat.not_succ_le_self _ hle
  · rintro ⟨⟨c, hc, hcv⟩, d, hd, hdv⟩
    obtain ⟨r, rfl⟩ := List.head?_eq_some_iff.1 hc
    obtain ⟨s, hs⟩ := List.getLast?_eq_some_iff.1 hd
    refine ⟨List.cons_ne_nil c r, ?_⟩
    rw [trim, trimLeft_cons_of_visible hcv, hs, trimRight_concat_of_visible hdv]

/-- trimming a text with a visible character -/
theorem isTrimmed_trim {t : Text} (h : trim t ≠ []) : IsTrimmed (trim t) := by
  rw [isTrimmed_iff]
  cases hl : trimLeft t with
  | nil => exact absurd (by rw [trim, hl]; rfl) h
  | cons c r =>
    have hc : isBlank c = false := by
      have hhead := List.head?_dropWhile_not isBlank t
      rw [show t.dropWhile isBlank = c :: r from hl] at hhead
      exact hhead
    have htrim : trim t = c :: trimRight r := by rw [trim, hl, trimRight_cons_of_visible hc]
    constructor
    · exact ⟨c, by rw [htrim]; rfl, hc⟩
    · cases hr : (trimLeft t).reverse.dropWhile isBlank with
      | nil => exact absurd (by rw [trim, trimRight, hr]; rfl) h
      | cons d s =>
        have hd := List.head?_dropWhile_not isBlank (trimLeft t).reverse
        rw [hr] at hd
        refine ⟨d, ?_, hd⟩
        rw [trim, trimRight, hr, List.getLast?_reverse]
        rfl

/-! ## pieces -/

inductive Covers : List Text → Text → Prop
  | nil {rest : Text} (h : allBlank rest = true) : Covers [] rest
  | cons {gap piece rest : Text} {more : List Text} (hg : allBlank gap = true)
      (hp : IsTrimmed piece) (h : Covers more rest) :
      Covers (piece :: more) (gap ++ (piece ++ rest))

theorem Covers.cons_append {piece rest : Text} {more : List Text} (hp : IsTrimmed piece)
    (h : Covers more rest) : Covers (piece :: more) (piece ++ rest) :=
  @Covers.cons [] piece rest more rfl hp h

theorem Covers.single {t : Text} (h : IsTrimmed t) : Covers [t] t := by
  have hc : Covers [t] (t ++ []) := .cons_append h (.nil rfl)
  rwa [List.append_nil] at hc

theorem Covers.blank_append {ps : List Text} {gap t : Text} (hg : allBlank gap = true)
    (h : Covers ps t) : Covers ps (gap ++ t) := by
  cases h with
  | nil hr => exact .nil (allBlank_append hg hr)
  | cons hg' hp hr =>
    rw [← List.append_assoc]
    exact .cons (allBlank_append hg hg') hp hr

theorem Covers.append {ps qs : List Text} {s t : Text} (hp : Covers ps s) (hq : Covers qs t) :
    Covers (ps ++ qs) (s ++ t) := by
  induction hp with
  | nil hr => exact hq.blank_append hr
  | cons hg hp _ ih =>
    rw [List.append_assoc, List.append_assoc]
    exact .cons hg hp ih

theorem Covers.append_blank {ps : List Text} {t gap : Text} (h : Covers ps t)
    (hg : allBlank gap = true) : Covers ps (t ++ gap) := by
  have ha := h.append (.nil hg)
  rwa [List.append_nil] at ha

theorem Covers.refine {ps : List Text} {t : Text} (h : Covers ps t) {f : Text → List Text}
    (hf : ∀ p, IsTrimmed p → Covers (f p) p) : Covers (ps.flatMap f) t := by
  induction h with
  | nil hr => exact .nil hr
  | cons hg hp _ ih => exact ((hf _ hp).append ih).blank_append hg

theorem Covers.visible_eq {ps : List Text} {t : Text} (h : Covers ps t) :
    visible ps.flatten = visible t := by
  induction h with
  | nil hr => exact (visible_of_allBlank hr).symm
  | cons hg _ _ ih =>
    rw [List.flatten_cons, visible_append, ih, visible_append, visible_append,
      visible_of_allBlank hg, List.nil_append]

theorem Covers.isTrimmed {ps : List Text} {t p : Text} (h : Covers ps t) (hp : p ∈ ps) :
    IsTrimmed p := by
  induction h with
  | nil _ => exact absurd hp List.not_mem_nil
  | cons _ ht _ ih =>
    rcases List.mem_cons.1 hp with rfl | hp
    · exact ht
    · exact ih hp

theorem Covers.isInfix {ps : List Text} {t p : Text} (h : Covers ps t) (hp : p ∈ ps) :
    p <:+: t := by
  induction h with
  | nil _ => exact absurd hp List.not_mem_nil
  | @cons gap piece rest more _ _ _ ih =>
    rcases List.mem_cons.1 hp with rfl | hp
    · exact ⟨gap, rest, List.append_assoc _ _ _⟩
    · rw [← List.append_assoc]
      exact (ih hp).trans (List.suffix_append _ _).isInfix

end CodeChart
