import CodeChart.Proofs.Flowchart.NodeLink
import CodeChart.Proofs.Graph.Token
import Mathlib.Data.List.Induction

/-!
# Tags as string tokens

The tag of an edge is written between double quotes, and only the double quotes in it are escaped.
A backslash in it is written as it is, so that a reader takes it together with what stands behind it
in the tag.

* `Dot.BackslashesStand`   every backslash is in front of a character with which it stands for
                         itself;
* `Dot.backslash_induction`   a text by its characters, a backslash with the one behind it;
* `Dot.length_of_readRest` no more is read than was written;
* `Dot.readRest_iff`       a text whose quotes are escaped is read back if and only if its
                         backslashes stand;
* `Graph.labelsBetween`  the labels of the edges between two nodes;
* `edgeLabel_isToken_iff`   the tag of an edge of a flowchart is written as one token that stands
                         for it if and only if its backslashes stand.
-/

namespace CodeChart

/-! ## backslashes -/

namespace Dot

def BackslashesStand (pair : Char → Text) (t : Text) : Prop :=
  ∀ rest, '\\' :: rest <:+ t →
    ∃ c more, rest = c :: more ∧ c ≠ '"' ∧ c ≠ '\\' ∧ pair c = ['\\', c]

variable {pair : Char → Text}

theorem backslashesStand_nil : BackslashesStand pair [] := fun rest h => by
  cases List.suffix_nil.1 h

theorem backslashesStand_cons_of_ne {c : Char} (h : c ≠ '\\') (t : Text) :
    BackslashesStand pair (c :: t) ↔ BackslashesStand pair t := by
  constructor
  · exact fun hall rest hs => hall rest (hs.trans (List.suffix_cons c t))
  · intro hall rest hs
    rcases List.suffix_cons_iff.1 hs with heq | hs
    · exact absurd (List.cons.inj heq).1.symm h
    · exact hall rest hs

theorem not_backslashesStand_lone : ¬ BackslashesStand pair ['\\'] := by
  intro hall
  obtain ⟨c, more, h, _⟩ := hall [] (List.suffix_refl _)
  cases h

theorem backslashesStand_pair (c : Char) (t : Text) : BackslashesStand pair ('\\' :: c :: t) ↔
    (c ≠ '"' ∧ c ≠ '\\' ∧ pair c = ['\\', c]) ∧ BackslashesStand pair t := by
  constructor
  · intro hall
    obtain ⟨d, more, h, hd⟩ := hall (c :: t) (List.suffix_refl _)
    rw [(List.cons.inj h).1]
    exact ⟨hd, fun rest hs => hall rest (hs.trans ⟨['\\', c], rfl⟩)⟩
  · rintro ⟨hc, hall⟩ rest hs
    rcases List.suffix_cons_iff.1 hs with heq | hs
    · exact ⟨c, t, (List.cons.inj heq).2, hc⟩
    · exact (backslashesStand_cons_of_ne hc.2.1 t).2 hall rest hs

/-! ## reading what is written -/

/-- the text with its quotes escaped, and the closing quote -/
def quotesEscaped (t : Text) : Text := replaceWith '"' ['\\', '"'] t ++ ['"']

theorem quotesEscaped_cons_of_ne {c : Char} (h : c ≠ '"') (t : Text) :
    quotesEscaped (c :: t) = c :: quotesEscaped t := by
  show (if c = '"' then ['\\', '"'] else [c]) ++ replaceWith '"' ['\\', '"'] t ++ ['"'] = _
  rw [if_neg h]
  rfl

theorem quotesEscaped_ne_nil (t : Text) : quotesEscaped t ≠ [] := by
  simp [quotesEscaped]

theorem readRest_cons {c : Char} (h : c ≠ '\\') (t : Text) :
    readRest pair (quotesEscaped (c :: t))
      = (readRest pair (quotesEscaped t)).map fun r => (c :: r.1, r.2) := by
  by_cases hquote : c = '"'
  · subst hquote
    exact readRest_pair pair '"' (quotesEscaped t)
  · rw [quotesEscaped_cons_of_ne hquote, readRest_ordinary pair hquote h]

theorem readRest_backslash {c : Char} (h : c ≠ '"') (t : Text) :
    readRest pair (quotesEscaped ('\\' :: c :: t))
      = (readRest pair (quotesEscaped t)).map fun r => (unescape pair c ++ r.1, r.2) := by
  rw [quotesEscaped_cons_of_ne (by decide), quotesEscaped_cons_of_ne h, readRest_pair]

/-- the backslash takes the one that should escape the quote, and the token ends too early -/
theorem readRest_backslash_quote (t : Text) :
    readRest pair (quotesEscaped ('\\' :: '"' :: t)) = some (['\\'], quotesEscaped t) := rfl

/-- the backslash takes the closing quote -/
theorem readRest_lone : readRest pair (quotesEscaped ['\\']) = none := rfl

/-- a backslash goes with the character behind it -/
@[elab_as_elim]
theorem backslash_induction {motive : Text → Prop} (nil : motive [])
    (ordinary : ∀ c t, c ≠ '\\' → motive t → motive (c :: t)) (lone : motive ['\\'])
    (quote : ∀ t, motive ('\\' :: '"' :: t))
    (other : ∀ c t, c ≠ '"' → motive t → motive ('\\' :: c :: t)) (t : Text) : motive t := by
  induction t using List.twoStepInduction with
  | nil => exact nil
  | singleton c =>
    by_cases hc : c = '\\'
    · exact hc ▸ lone
    · exact ordinary c [] hc nil
  | cons_cons c d t ih ih' =>
    by_cases hc : c = '\\'
    · subst hc
      by_cases hd : d = '"'
      · exact hd ▸ quote t
      · exact other d t hd ih
    · exact ordinary c (d :: t) hc (ih' d)

section
variable (hpair : ∀ c, (pair c).length ≤ 2)
include hpair

theorem length_unescape_le (c : Char) : (unescape pair c).length ≤ 2 := by
  unfold unescape
  split
  · exact Nat.le_succ 1
  · exact hpair c

theorem length_of_readRest {t u v : Text} (h : readRest pair (quotesEscaped t) = some (u, v)) :
    u.length ≤ t.length := by
  induction t using backslash_induction generalizing u v with
  | nil =>
    obtain ⟨rfl, _⟩ := Prod.mk.inj (Option.some.inj h)
    exact Nat.le_refl _
  | ordinary c t hc ih =>
    rw [readRest_cons hc, Option.map_eq_some_iff] at h
    obtain ⟨r, hr, heq⟩ := h
    obtain ⟨rfl, _⟩ := Prod.mk.inj heq
    exact Nat.succ_le_succ (ih hr)
  | lone => cases h
  | quote t =>
    obtain ⟨rfl, _⟩ := Prod.mk.inj (Option.some.inj h)
    exact Nat.succ_le_succ (Nat.zero_le _)
  | other c t hc ih =>
    rw [readRest_backslash hc, Option.map_eq_some_iff] at h
    obtain ⟨r, hr, heq⟩ := h
    obtain ⟨rfl, _⟩ := Prod.mk.inj heq
    have hrest := ih hr
    have htwo := length_unescape_le hpair c
    simp only [List.length_append, List.length_cons]
    omega

/-- no pair can give more than itself, and so none may give less -/
theorem append_of_readRest {c : Char} {t u v : Text}
    (hr : readRest pair (quotesEscaped t) = some (u, v))
    (heq : unescape pair c ++ u = '\\' :: c :: t) : unescape pair c = ['\\', c] ∧ u = t := by
  have hboth : unescape pair c ++ u = ['\\', c] ++ t := heq
  have hsame : (unescape pair c).length = ['\\', c].length := by
    have hlength := congrArg List.length hboth
    have hrest := length_of_readRest hpair hr
    have htwo := length_unescape_le hpair c
    simp only [List.length_append, List.length_cons, List.length_nil] at hlength ⊢
    omega
  exact List.append_inj hboth hsame

theorem readRest_iff (t : Text) :
    readRest pair (quotesEscaped t) = some (t, []) ↔ BackslashesStand pair t := by
  induction t using backslash_induction with
  | nil => exact iff_of_true rfl backslashesStand_nil
  | ordinary c t hc ih =>
    rw [readRest_cons hc, backslashesStand_cons_of_ne hc, ← ih, Option.map_eq_some_iff]
    constructor
    · rintro ⟨⟨u, v⟩, hr, heq⟩
      rw [hr]
      simpa using heq
    · exact fun h => ⟨_, h, rfl⟩
  | lone => exact iff_of_false (by simp [readRest_lone]) not_backslashesStand_lone
  | quote t =>
    rw [readRest_backslash_quote, backslashesStand_pair]
    refine iff_of_false (fun h => ?_) fun h => h.1.1 rfl
    exact quotesEscaped_ne_nil t (Prod.mk.inj (Option.some.inj h)).2
  | other c t hc ih =>
    rw [readRest_backslash hc, backslashesStand_pair, ← ih, Option.map_eq_some_iff]
    constructor
    · rintro ⟨⟨u, v⟩, hr, heq⟩
      obtain ⟨htext, rfl⟩ := Prod.mk.inj heq
      obtain ⟨hstands, rfl⟩ := append_of_readRest hpair hr htext
      unfold unescape at hstands
      split at hstands
      · cases hstands
      · rename_i hother
        rw [not_or] at hother
        exact ⟨⟨hother.1, hother.2, hstands⟩, hr⟩
    · rintro ⟨⟨_, hslash, hstands⟩, hr⟩
      refine ⟨_, hr, ?_⟩
      rw [unescape, if_neg (not_or.2 ⟨hc, hslash⟩), hstands]
      rfl

end

end Dot

/-! ## the edges of a graph -/

def GraphEdge.label? {ι : Type} (e : GraphEdge ι) : Option Value :=
  e.attributes.lookup "label".toList

/-- the label of each edge from `s` to `t` -/
def Graph.labelsBetween {ι : Type} [DecidableEq ι] (g : Graph ι) (s t : ι) : List (Option Value) :=
  (g.edgesBetween s t).map GraphEdge.label?

theorem Graph.labelsBetween_mapEdges {ι : Type} [DecidableEq ι] (g : Graph ι)
    (f : Attributes → Attributes) (s t : ι) : (g.mapEdges f).labelsBetween s t
      = (g.edgesBetween s t).map fun e => (f e.attributes).lookup "label".toList := by
  have hbetween : (g.mapEdges f).edgesBetween s t
      = (g.edgesBetween s t).map fun e => { e with attributes := f e.attributes } :=
    List.filter_map
  rw [labelsBetween, hbetween, List.map_map]
  rfl

theorem Dot.lookup_withEdgeLabel {a : Attributes} {t : Text} (hne : t ≠ [])
    (h : a.lookup "label".toList = some (.text t)) :
    (Dot.withEdgeLabel a).lookup "label".toList = some (.text ('"' :: Dot.quotesEscaped t)) := by
  have hlabel : Dot.edgeLabel? (Value.text t).toText = some ('"' :: Dot.quotesEscaped t) :=
    if_neg (mt List.isEmpty_iff.1 hne)
  simp only [Dot.withEdgeLabel, h, hlabel]
  exact Assoc.lookup_set_self a _ _

/-! ## the edges of a flowchart -/

/-- no other edge has the same ends -/
theorem Flowchart.edgesBetween_asGraph {chart : Flowchart} (language : Text)
    (hends : (chart.edges.map fun e => (e.source, e.target)).Nodup) {e : Edge}
    (he : e ∈ chart.edges) :
    (chart.asGraph language).edgesBetween e.source e.target = [e.toGraphEdge] := by
  have honly := filter_eq_singleton hends he
  simp only [Prod.mk.injEq] at honly
  show (chart.edges.map Edge.toGraphEdge).filter _ = _
  rw [List.filter_map]
  exact congrArg (List.map Edge.toGraphEdge) honly

theorem Builder.Hung.labelsBetween {b : Builder} (hs : b.Sound) (h : b.Hung) (language : Text)
    (quoting : Option Text) {e : Edge} (he : e ∈ b.edges) {tag : Text} (htag : e.tag = some tag) :
    ((b.chart.toGraph language).withQuotedLabels quoting).labelsBetween e.source e.target
      = [some (.text ('"' :: Dot.quotesEscaped tag))] := by
  obtain ⟨n, _, hfit⟩ := exists_of_mem_left h.fits.flip he
  have hne : tag ≠ [] := by
    rintro rfl
    rw [hfit.tag] at htag
    split at htag
    · rename_i hcase
      exact hfit.label hcase (Option.some.inj htag)
    · cases htag
  have hlabel : e.attributes.lookup "label".toList = some (.text tag) := by
    rw [e.lookup_label, htag]
    rfl
  have hbetween : ((b.chart.asGraph language).mapNodes (Dot.withNodeLabel quoting)).edgesBetween
      e.source e.target = [e.toGraphEdge] :=
    Flowchart.edgesBetween_asGraph language (h.isRootedTree hs).parallelFree he
  rw [h.toGraph_eq hs, Graph.withQuotedLabels, Graph.labelsBetween_mapEdges, hbetween,
    List.map_singleton]
  exact congrArg (fun l => [l]) (Dot.lookup_withEdgeLabel hne hlabel)

/-- **the tag of an edge is written as one token that stands for it if and only if its backslashes
stand**, each for itself and for no other character -/
theorem edgeLabel_isToken_iff {pair : Char → Text} (hpair : ∀ c, (pair c).length ≤ 2) (src : Text)
    (lang : Language) {e : Edge} (he : e ∈ (Flowchart.ofSource src).edges) {tag : Text}
    (htag : e.tag = some tag) : ∃ label,
      (((Flowchart.ofSource src).toGraph lang.name).withQuotedLabels
        (some lang.name)).labelsBetween e.source e.target = [some (.text label)] ∧
      Dot.value label = label ∧
      (Dot.readToken pair label = some (tag, []) ↔ Dot.BackslashesStand pair tag) := by
  obtain ⟨hsound, hhung⟩ := Builder.hung_performAll [.run src]
  refine ⟨'"' :: Dot.quotesEscaped tag, ?_, Dot.value_quoted _, Dot.readRest_iff hpair tag⟩
  exact hhung.labelsBetween hsound lang.name (some lang.name) he htag

/-- a `switch` with one case -/
def switchOn (t : Text) : Text :=
  "switch (c) \x7b\ncase ".toList ++ t ++ ":\nx();\n\x7d".toList

/-- in front of an `n` a backslash may stand for itself -/
theorem edgeLabel_isToken_escape :
    (∀ c : Char, ['\\', c].length ≤ 2) ∧
    (⟨.node 0, .node 1, .solid, some "Case '\\n'".toList⟩ : Edge)
      ∈ (Flowchart.ofSource (switchOn "'\\n'".toList)).edges ∧
    ∃ label, (((Flowchart.ofSource (switchOn "'\\n'".toList)).toGraph
        Language.cpp.name).withQuotedLabels (some Language.cpp.name)).labelsBetween (.node 0)
          (.node 1) = [some (.text label)] ∧
      Dot.readToken (fun c => ['\\', c]) label = some ("Case '\\n'".toList, []) := by
  have hedge : (⟨.node 0, .node 1, .solid, some "Case '\\n'".toList⟩ : Edge)
      ∈ (Flowchart.ofSource (switchOn "'\\n'".toList)).edges := by
    decide +kernel
  have htwo : ∀ c : Char, ['\\', c].length ≤ 2 := fun _ => Nat.le_refl 2
  have hstands : Dot.BackslashesStand (fun c => ['\\', c]) "Case '\\n'".toList :=
    (Dot.readRest_iff htwo _).1 (by decide)
  obtain ⟨label, hlabel, _, hread⟩ := edgeLabel_isToken_iff htwo _ .cpp hedge rfl
  exact ⟨htwo, hedge, label, hlabel, hread.2 hstands⟩

/-- the first of two backslashes takes the second one, whatever other pairs stand for -/
theorem edgeLabel_takesBackslash :
    ∃ e ∈ (Flowchart.ofSource (switchOn "'\\\\'".toList)).edges,
      e.tag = some "Case '\\\\'".toList ∧
      ∃ label, (((Flowchart.ofSource (switchOn "'\\\\'".toList)).toGraph
          Language.cpp.name).withQuotedLabels (some Language.cpp.name)).labelsBetween e.source
            e.target = [some (.text label)] ∧
        ∀ pair, Dot.readToken pair label = some ("Case '\\'".toList, []) :=
  ⟨⟨.node 0, .node 1, .solid, some "Case '\\\\'".toList⟩, by decide +kernel, rfl,
    "\"Case '\\\\'\"".toList, by decide +kernel, fun _ => rfl⟩

end CodeChart
