import CodeChart.Path
import CodeChart.Proofs.Text.Split

/-!
# Components of names and paths

A name is cut at its slashes, and what lies between them are its components.  A text that is the
end of another one behind a slash, or the start of one in front of a slash, is so component by
component.

* `components`          the components of a text;
* `components_suffix_iff`, `components_prefix_iff`   the end and the start of a text, in
                        components and in characters;
* `components_intercalate`   the components of components that are joined;
* `Path.leading`        what a path puts in front of the names below it, and
                        `Path.components_append` says so;
* `suffix_append_iff`   the end of two lists in a row: an end of the second one, or all of it
                        behind an end of the first.
-/

namespace CodeChart

/-! ## components -/

def components (t : Text) : List Text := splitOn '/' t

theorem components_injective : Function.Injective components := splitOn_injective

theorem components_ne_nil (t : Text) : components t ≠ [] := List.splitOn_ne_nil '/' t

/-- what stands in front of the components of `a` makes up a text of its own -/
theorem components_suffix_iff {a b : Text} :
    components a <:+ components b ↔ b = a ∨ ('/' :: a) <:+ b := by
  constructor
  · rintro ⟨front, hfront⟩
    cases front with
    | nil => exact .inl (components_injective hfront.symm)
    | cons first front =>
      right
      refine ⟨List.intercalate ['/'] (first :: front), ?_⟩
      have hjoined := congrArg (List.intercalate ['/']) hfront
      rw [intercalate_append (List.cons_ne_nil first front) (components_ne_nil a), components,
        List.intercalate_splitOn, components, List.intercalate_splitOn] at hjoined
      exact hjoined
  · rintro (rfl | ⟨front, rfl⟩)
    · exact List.suffix_refl _
    · rw [components, components, List.splitOn_append_cons_self]
      exact List.suffix_append _ _

/-- the same for what stands behind them -/
theorem components_prefix_iff {a b : Text} :
    (components a <+: components b ∧ components a ≠ components b) ↔ (a ++ ['/']) <+: b := by
  constructor
  · rintro ⟨⟨behind, hbehind⟩, hne⟩
    have hrest : behind ≠ [] := by
      rintro rfl
      exact hne ((List.append_nil _).symm.trans hbehind)
    have hjoined := congrArg (List.intercalate ['/']) hbehind
    rw [intercalate_append (components_ne_nil a) hrest, components, List.intercalate_splitOn,
      components, List.intercalate_splitOn] at hjoined
    exact ⟨List.intercalate ['/'] behind, by rw [List.append_assoc]; exact hjoined⟩
  · rintro ⟨behind, rfl⟩
    have hsplit : components (a ++ ['/'] ++ behind) = components a ++ components behind := by
      rw [List.append_assoc]
      exact List.splitOn_append_cons_self a behind
    rw [hsplit]
    refine ⟨List.prefix_append _ _, fun heq => components_ne_nil behind ?_⟩
    exact List.append_right_eq_self.1 heq.symm

theorem components_intercalate {xs : List Text} (h : xs ≠ []) :
    components (List.intercalate ['/'] xs) = xs.flatMap components :=
  splitOn_join h

/-- joining loses nothing of components without slashes -/
theorem components_intercalate_of_not_mem {xs : List Text} (h : xs ≠ [])
    (hslash : ∀ x ∈ xs, '/' ∉ x) : components (List.intercalate ['/'] xs) = xs :=
  List.splitOn_intercalate '/' hslash h

theorem suffix_append_iff {α : Type} {xs front back : List α} :
    xs <:+ front ++ back ↔ xs <:+ back ∨ ∃ s, s ≠ [] ∧ s <:+ front ∧ xs = s ++ back := by
  constructor
  · rintro ⟨before, h⟩
    rcases List.append_eq_append_iff.1 h with ⟨s, rfl, hxs⟩ | ⟨s, _, hback⟩
    · cases s with
      | nil => exact .inl (hxs ▸ List.suffix_refl _)
      | cons x s => exact .inr ⟨x :: s, List.cons_ne_nil x s, List.suffix_append _ _, hxs⟩
    · exact .inl ⟨s, hback.symm⟩
  · rintro (h | ⟨s, _, ⟨before, rfl⟩, rfl⟩)
    · exact h.trans (List.suffix_append _ _)
    · exact ⟨before, (List.append_assoc ..).symm⟩

/-! ## components of paths -/

/-- the slashes of an anchor have nothing in front of them -/
def Anchor.leading : Anchor → List Text
  | .relative => []
  | .root => [[]]
  | .doubleRoot => [[], []]

def Path.leading (p : Path) : List Text := p.anchor.leading ++ p.parts.flatMap components

theorem Anchor.components_text_append (a : Anchor) (t : Text) :
    components (a.text ++ t) = a.leading ++ components t := by
  cases a with
  | relative => rfl
  | root => exact splitOn_cons_self '/' t
  | doubleRoot =>
    show splitOn '/' ('/' :: '/' :: t) = _
    rw [splitOn_cons_self, splitOn_cons_self]
    rfl

theorem Path.text_of_parts {p : Path} (h : p.parts ≠ []) :
    p.text = p.anchor.text ++ List.intercalate ['/'] p.parts := by
  rw [Path.text, if_neg fun hdot => h hdot.2]

theorem Path.components_append (root : Path) {parts : List Text} (h : parts ≠ []) :
    components (root.append parts).text
      = root.leading ++ components (List.intercalate ['/'] parts) := by
  have hparts : (root.append parts).parts ≠ [] := fun hnil => h (List.append_eq_nil_iff.1 hnil).2
  rw [Path.text_of_parts hparts, Anchor.components_text_append, components_intercalate hparts,
    components_intercalate h, Path.leading, List.append_assoc]
  exact congrArg _ List.flatMap_append

/-- the text of a path below another one starts with a text that depends on that one alone -/
theorem Path.exists_text_append (root : Path) :
    ∃ front, ∀ parts, parts ≠ [] →
      (root.append parts).text = front ++ List.intercalate ['/'] parts := by
  by_cases hroot : root.parts = []
  · refine ⟨root.anchor.text, fun parts h => ?_⟩
    have hparts : (root.append parts).parts = parts := by
      show root.parts ++ parts = parts
      rw [hroot, List.nil_append]
    rw [Path.text_of_parts (hparts.symm ▸ h), hparts]
    rfl
  · refine ⟨root.anchor.text ++ (List.intercalate ['/'] root.parts ++ ['/']), fun parts h => ?_⟩
    have hparts : (root.append parts).parts ≠ [] :=
      fun hnil => hroot (List.append_eq_nil_iff.1 hnil).1
    rw [Path.text_of_parts hparts]
    show root.anchor.text ++ List.intercalate ['/'] (root.parts ++ parts) = _
    rw [intercalate_append hroot h]
    simp only [List.append_assoc, List.singleton_append]

end CodeChart
