import CodeChart.Include.Directive
import CodeChart.Proofs.Text.Ends

/-!
# The directives of a text

A text is searched for its first directive, and the search goes on behind it, so directives do not
overlap.

* `IsDirective`         a directive with the name in it and what follows: the word, and behind it
                        blanks, an opening mark, the name and a closing mark (`IsNamed`);
                        `directiveAt?_eq_some_iff` says that it is read as such;
* `HoldsNames`          the names in the directives of a text, one directive after the other;
* `holdsNames_iff`      these are the names that are read, so there is exactly one list of them.
-/

namespace CodeChart

/-! ## one directive -/

def directiveWord : Text := "#include".toList

/-- what stands behind the word: the name holds no closing mark and is not empty -/
inductive IsNamed : Text → Text → Text → Prop
  | intro {gap name after : Text} {opener closer : Char} (blank : allBlank gap = true)
      (opens : opensName opener = true) (nonempty : name ≠ [])
      (unclosed : ∀ c ∈ name, closesName c = false) (closes : closesName closer = true) :
      IsNamed (gap ++ opener :: (name ++ closer :: after)) name after

def IsDirective (t name after : Text) : Prop :=
  ∃ rest, t = directiveWord ++ rest ∧ IsNamed rest name after

/-- the name behind the word, and what follows it -/
def namedAt? (rest : Text) : Option (Text × Text) :=
  match trimLeft rest with
  | [] => none
  | c :: tail =>
    match tail.dropWhile fun d => !closesName d with
    | [] => none
    | _ :: after =>
      if opensName c && !(tail.takeWhile fun d => !closesName d).isEmpty then
        some (tail.takeWhile fun d => !closesName d, after)
      else none

theorem directiveAt?_eq (t : Text) : directiveAt? t =
    if directiveWord.isPrefixOf t then namedAt? (t.drop directiveWord.length) else none := rfl

theorem isBlank_of_opensName {c : Char} (h : opensName c = true) : isBlank c = false := by
  simp only [opensName, Bool.or_eq_true, beq_iff_eq] at h
  rcases h with rfl | rfl <;> decide

theorem IsNamed.namedAt?_eq {rest name after : Text} (h : IsNamed rest name after) :
    namedAt? rest = some (name, after) := by
  obtain ⟨hblank, hopens, hname, hunclosed, hcloses⟩ := h
  rename_i gap opener closer
  have hgap : trimLeft (gap ++ opener :: (name ++ closer :: after))
      = opener :: (name ++ closer :: after) := by
    rw [trimLeft_blank_append hblank, trimLeft_cons_of_visible (isBlank_of_opensName hopens)]
  have hopen : ∀ c ∈ name, (!closesName c) = true := fun c hc => by rw [hunclosed c hc]; rfl
  have hclose : ¬ (!closesName closer) = true := by rw [hcloses]; exact Bool.false_ne_true
  have hstop := List.takeWhile_cons_of_neg (p := fun d => !closesName d) (l := after) hclose
  have hrest := List.dropWhile_cons_of_neg (p := fun d => !closesName d) (l := after) hclose
  have htake : (name ++ closer :: after).takeWhile (fun d => !closesName d) = name := by
    rw [List.takeWhile_append_of_pos hopen, hstop, List.append_nil]
  have hdrop : (name ++ closer :: after).dropWhile (fun d => !closesName d)
      = closer :: after := by
    rw [List.dropWhile_append_of_pos hopen, hrest]
  have hlast : (opensName opener && !name.isEmpty) = true := by
    rw [hopens, List.isEmpty_eq_false_iff.2 hname]
    rfl
  rw [namedAt?, hgap]
  simp only [htake, hdrop, hlast, if_true]

theorem isNamed_of_namedAt? {rest name after : Text} (h : namedAt? rest = some (name, after)) :
    IsNamed rest name after := by
  obtain ⟨gap, hgap, hrest⟩ := exists_trimLeft rest
  rw [namedAt?] at h
  split at h
  · cases h
  · rename_i opener tail htail
    have hsplit := List.takeWhile_append_dropWhile (p := fun d => !closesName d) (l := tail)
    split at h
    · cases h
    · rename_i closer after' hdrop
      split at h
      · rename_i hlast
        obtain ⟨hopens, hname⟩ := Bool.and_eq_true_iff.1 hlast
        obtain ⟨rfl, rfl⟩ := Prod.mk.inj (Option.some.inj h)
        have hhead := List.head?_dropWhile_not (fun d => !closesName d) tail
        rw [hdrop] at hhead hsplit
        rw [htail, ← hsplit] at hrest
        rw [hrest]
        refine .intro hgap hopens ?_ (fun c hc => ?_) ?_
        · simpa using hname
        · simpa using List.mem_takeWhile_imp hc
        · simpa using hhead
      · cases h

theorem directiveAt?_eq_some_iff {t name after : Text} :
    directiveAt? t = some (name, after) ↔ IsDirective t name after := by
  rw [directiveAt?_eq]
  constructor
  · intro h
    split at h
    · rename_i hword
      obtain ⟨rest, rfl⟩ := List.isPrefixOf_iff_prefix.1 hword
      rw [List.drop_left] at h
      exact ⟨rest, rfl, isNamed_of_namedAt? h⟩
    · cases h
  · rintro ⟨rest, rfl, hnamed⟩
    rw [if_pos (List.isPrefixOf_iff_prefix.2 (List.prefix_append _ _)), List.drop_left]
    exact hnamed.namedAt?_eq

def StartsDirective (t : Text) : Prop := ∃ name after, IsDirective t name after

theorem directiveAt?_eq_none_iff {t : Text} : directiveAt? t = none ↔ ¬ StartsDirective t := by
  constructor
  · rintro h ⟨name, after, hdir⟩
    rw [directiveAt?_eq_some_iff.2 hdir] at h
    cases h
  · intro h
    cases ht : directiveAt? t with
    | none => rfl
    | some p => exact absurd ⟨p.1, p.2, directiveAt?_eq_some_iff.1 ht⟩ h

/-! ## all directives -/

/-- no directive begins in front of the first one, or none at all -/
inductive HoldsNames : Text → List Text → Prop
  | none {t : Text} (h : ∀ s, s <:+ t → ¬ StartsDirective s) : HoldsNames t []
  | first {before t name after : Text} {names : List Text}
      (leftmost : ∀ s, s <:+ before → s ≠ [] → ¬ StartsDirective (s ++ t))
      (here : IsDirective t name after) (behind : HoldsNames after names) :
      HoldsNames (before ++ t) (name :: names)

theorem directives_of_directiveAt? {t name after : Text}
    (h : directiveAt? t = some (name, after)) : directives t = name :: directives after := by
  rw [directives]
  split
  · rename_i name' after' heq
    obtain ⟨rfl, rfl⟩ := Prod.mk.inj (Option.some.inj (heq.symm.trans h))
    rfl
  · rename_i heq
    rw [h] at heq
    cases heq

theorem directives_nil : directives [] = [] := by
  rw [directives]
  rfl

theorem directives_cons_of_none {c : Char} {t : Text} (h : directiveAt? (c :: t) = none) :
    directives (c :: t) = directives t := by
  rw [directives]
  split
  · rename_i name after heq
    rw [h] at heq
    cases heq
  · rfl

theorem HoldsNames.directives_eq {t : Text} {names : List Text} (h : HoldsNames t names) :
    directives t = names := by
  induction h with
  | @none t h =>
    induction t with
    | nil => exact directives_nil
    | cons c t ih =>
      rw [directives_cons_of_none (directiveAt?_eq_none_iff.2 (h _ (List.suffix_refl _)))]
      exact ih fun s hs => h s (hs.trans (List.suffix_cons c t))
  | @first before t name after names leftmost here _ ih =>
    induction before with
    | nil => rw [List.nil_append, directives_of_directiveAt? (directiveAt?_eq_some_iff.2 here), ih]
    | cons c before ihBefore =>
      have hnone := leftmost _ (List.suffix_refl (c :: before)) (List.cons_ne_nil c before)
      have hskip : directives (c :: (before ++ t)) = directives (before ++ t) :=
        directives_cons_of_none (directiveAt?_eq_none_iff.2 hnone)
      rw [List.cons_append, hskip]
      exact ihBefore fun s hs => leftmost s (hs.trans (List.suffix_cons c before))

/-- a character at which no directive begins comes before all -/
theorem HoldsNames.cons {c : Char} {t : Text} {names : List Text}
    (hc : ¬ StartsDirective (c :: t)) (h : HoldsNames t names) : HoldsNames (c :: t) names := by
  cases h with
  | none h =>
    refine .none fun s hs => ?_
    rcases List.suffix_cons_iff.1 hs with rfl | hs
    · exact hc
    · exact h s hs
  | @first before t name after names leftmost here behind =>
    rw [← List.cons_append] at hc ⊢
    refine .first (fun s hs hne => ?_) here behind
    rcases List.suffix_cons_iff.1 hs with rfl | hs
    · exact hc
    · exact leftmost s hs hne

theorem holdsNames_directives (t : Text) : HoldsNames t (directives t) := by
  fun_induction directives t with
  | case1 t name after h ih =>
    rw [← List.nil_append t]
    exact .first (fun s hs hne => absurd (List.suffix_nil.1 hs) hne)
      (directiveAt?_eq_some_iff.1 h) ih
  | case2 h =>
    refine .none fun s hs => ?_
    rw [List.suffix_nil.1 hs]
    exact directiveAt?_eq_none_iff.1 h
  | case3 c t h ih => exact ih.cons (directiveAt?_eq_none_iff.1 h)

theorem holdsNames_iff {t : Text} {names : List Text} :
    HoldsNames t names ↔ directives t = names := by
  constructor
  · exact HoldsNames.directives_eq
  · rintro rfl
    exact holdsNames_directives t

end CodeChart
