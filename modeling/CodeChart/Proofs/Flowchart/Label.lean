import CodeChart.Proofs.Builder.Drawn
import CodeChart.Proofs.Pairing
import CodeChart.Proofs.Source.Pieces

/-!
# What a label can hold

The characters of a label are those of its statement and of a few fixed words, and a statement
stands on one line.  What `sanitize` makes of a label holds no double quote and no new line end.

* `mem_encodeEntities`, `mem_decodeEntities`, `mem_shorten`   where the characters of each step come
                        from;
* `quote_not_mem_sanitize`, `newline_not_mem_sanitize`   what cannot end a label;
* `condition_subset`, `caseValue_subset`   the parts of a statement that labels are made of;
* `Kind.newline_not_mem_label`   the label of a statement on one line is on one line;
* `newline_not_mem_node`   so are the labels of a source text.
-/

namespace CodeChart

/-! ## sanitizing -/

theorem mem_encodeEntities {c : Char} {t : Text} (h : c ∈ encodeEntities t) :
    c ∈ t ∨ c ∈ "&amp;&lt;&gt;".toList := by
  obtain ⟨d, hd, hc⟩ := List.mem_flatMap.1 h
  have hfixed : ∀ e : Text, e ⊆ "&amp;&lt;&gt;".toList → c ∈ e →
      c ∈ t ∨ c ∈ "&amp;&lt;&gt;".toList := fun e he hce => .inr (he hce)
  unfold entity at hc
  split at hc
  · exact hfixed "&amp;".toList (by decide) hc
  split at hc
  · exact hfixed "&lt;".toList (by decide) hc
  split at hc
  · exact hfixed "&gt;".toList (by decide) hc
  · rw [List.mem_singleton.1 hc]
    exact .inl hd

theorem mem_decodeEntities {c : Char} {t : Text} (h : c ∈ decodeEntities t) :
    c ∈ t ∨ c ∈ "&<>".toList := by
  have hfixed : ∀ (d : Char) (rest : Text), d ∈ "&<>".toList → c ∈ d :: decodeEntities rest →
      (c ∈ decodeEntities rest → c ∈ rest ∨ c ∈ "&<>".toList) → c ∈ rest ∨ c ∈ "&<>".toList := by
    intro d rest hd hm ih
    rcases List.mem_cons.1 hm with rfl | hm
    · exact .inr hd
    · exact ih hm
  fun_induction decodeEntities t with
  | case1 rest ih =>
    exact (hfixed '&' rest (by decide) h ih).imp_left (List.mem_append_right "&amp;".toList)
  | case2 rest ih =>
    exact (hfixed '<' rest (by decide) h ih).imp_left (List.mem_append_right "&lt;".toList)
  | case3 rest ih =>
    exact (hfixed '>' rest (by decide) h ih).imp_left (List.mem_append_right "&gt;".toList)
  | case4 d rest _ _ _ ih =>
    rcases List.mem_cons.1 h with rfl | h
    · exact .inl List.mem_cons_self
    · exact (ih h).imp_left (List.mem_cons_of_mem d)
  | case5 => exact absurd h List.not_mem_nil

theorem mem_shorten {c : Char} {t : Text} (h : c ∈ shorten t) : c ∈ t ∨ c ∈ ellipsis := by
  unfold shorten at h
  split at h
  · exact (List.mem_append.1 h).imp_left List.mem_of_mem_take
  · exact .inl h

theorem plainChar_ne_quote (c : Char) : plainChar c ≠ '"' := by
  unfold plainChar
  split
  · decide
  split
  · decide
  · assumption

theorem eq_newline_of_plainChar {c : Char} (h : plainChar c = '\n') : c = '\n' := by
  unfold plainChar at h
  split at h
  · exact absurd h (by decide)
  split at h
  · exact absurd h (by decide)
  · exact h

theorem quote_not_mem_sanitize (t : Text) : '"' ∉ sanitize t := by
  intro h
  rcases mem_encodeEntities h with h | h
  · rcases mem_shorten h with h | h
    · obtain ⟨c, _, hc⟩ := List.mem_map.1 h
      exact plainChar_ne_quote c hc
    · exact absurd h (by decide)
  · exact absurd h (by decide)

theorem newline_not_mem_sanitize {t : Text} (h : '\n' ∉ t) : '\n' ∉ sanitize t := by
  intro hs
  rcases mem_encodeEntities hs with hs | hs
  · rcases mem_shorten hs with hs | hs
    · obtain ⟨c, hc, hplain⟩ := List.mem_map.1 hs
      rw [eq_newline_of_plainChar hplain] at hc
      rcases mem_decodeEntities hc with hc | hc
      · exact h hc
      · exact absurd hc (by decide)
    · exact absurd hs (by decide)
  · exact absurd hs (by decide)

/-! ## the parts of a statement -/

theorem trim_subset (t : Text) : trim t ⊆ t := (trim_isInfix t).subset

theorem beforeLastParen?_subset {t inner : Text} (h : beforeLastParen? t = some inner) :
    inner ⊆ t := by
  simp only [beforeLastParen?] at h
  split at h
  · cases h
  · rename_i c rest hrest
    obtain rfl := Option.some.inj h
    intro d hd
    have hmem : d ∈ (List.takeWhile (· ≠ '\n') t).reverse := by
      refine List.dropWhile_subset (· ≠ ')') ?_
      rw [hrest]
      exact List.mem_cons_of_mem c (List.mem_reverse.1 hd)
    exact List.takeWhile_subset (· ≠ '\n') (List.mem_reverse.1 hmem)

theorem groupAt?_subset {keyword t inner : Text} (h : groupAt? keyword t = some inner) :
    inner ⊆ t := by
  unfold groupAt? at h
  split at h
  · split at h
    · rename_i rest hrest
      intro d hd
      have hmem : d ∈ trimLeft (t.drop keyword.length) := by
        rw [hrest]
        exact List.mem_cons_of_mem _ (beforeLastParen?_subset h hd)
      exact List.drop_subset _ t (List.dropWhile_subset _ hmem)
    · cases h
  · cases h

theorem group?_subset {keyword t inner : Text} (h : group? keyword t = some inner) :
    inner ⊆ t := by
  induction t with
  | nil => exact groupAt?_subset h
  | cons c t ih =>
    unfold group? at h
    split at h
    · rename_i found hfound
      rw [← Option.some.inj h]
      exact groupAt?_subset hfound
    · exact List.Subset.trans (ih h) (List.subset_cons_self c t)

theorem eraseFirst_subset (w t : Text) : eraseFirst w t ⊆ t := by
  induction t with
  | nil => exact List.Subset.refl _
  | cons c t ih =>
    unfold eraseFirst
    split
    · exact List.drop_subset _ _
    · exact List.cons_subset_cons c ih

theorem withoutGroup_subset (keyword t : Text) : withoutGroup keyword t ⊆ t :=
  List.Subset.trans (trim_subset _)
    (List.Subset.trans (List.filter_subset_self _) (eraseFirst_subset keyword t))

theorem condition_subset (keyword t : Text) : condition keyword t ⊆ t := by
  unfold condition
  split
  · exact withoutGroup_subset keyword t
  · exact withoutGroup_subset keyword t
  · rename_i inner _ hgroup
    refine List.Subset.trans (trim_subset _) (List.Subset.trans ?_ (group?_subset hgroup))
    unfold dropStrayParen
    split
    · exact List.dropLast_subset inner
    · exact List.Subset.refl inner

theorem beforeColon_subset (afterColon : Bool) (t : Text) : beforeColon afterColon t ⊆ t := by
  induction t generalizing afterColon with
  | nil => exact List.Subset.refl _
  | cons c t ih =>
    unfold beforeColon
    split
    · exact List.nil_subset _
    · exact List.cons_subset_cons c (ih _)

theorem caseValue_subset (t : Text) : caseValue t ⊆ t := by
  show (if "case".toList.isPrefixOf t then _ else _) ⊆ t
  split
  · exact List.Subset.trans (trim_subset _)
      (List.Subset.trans (beforeColon_subset _ _) (List.drop_subset _ t))
  · exact List.nil_subset t

theorem afterClosers_subset (t : Text) : afterClosers t ⊆ t :=
  List.Subset.trans (trim_subset _) (List.dropWhile_subset _)

/-! ## labels -/

theorem Kind.newline_not_mem_label (k : Kind) {t : Text} (h : '\n' ∉ t) : '\n' ∉ k.label t := by
  have hcondition : ∀ keyword, '\n' ∉ condition keyword t :=
    fun keyword hm => h (condition_subset keyword t hm)
  have hword : '\n' ∉ loopWord t := by
    unfold loopWord
    split <;> decide
  have happend : ∀ a b : Text, '\n' ∉ a → '\n' ∉ b → '\n' ∉ a ++ b := fun a b ha hb hm =>
    (List.mem_append.1 hm).elim ha hb
  cases k with
  | conditional => exact happend _ _ (hcondition _) (by decide)
  | alternative =>
    show '\n' ∉ "else".toList
    decide
  | switch => exact happend _ _ (by decide) (hcondition _)
  | caseLabel =>
    have hvalue : '\n' ∉ "Case ".toList ++ caseValue t :=
      happend _ _ (by decide) fun hm => h (caseValue_subset t hm)
    show '\n' ∉ if "default".toList.isPrefixOf t then "Default".toList
      else trim ("Case ".toList ++ caseValue t)
    split
    · decide
    · exact fun hm => hvalue (trim_subset _ hm)
  | loop => exact happend _ _ (happend _ _ hword (by decide)) (hcondition _)
  | doLoop =>
    show '\n' ∉ "DO loop start".toList
    decide
  | tryBlock =>
    show '\n' ∉ "TRY Block".toList
    decide
  | handler => exact happend _ _ (by decide) (hcondition _)
  | jump => exact h
  | plain => exact h

theorem newline_not_mem_statement {src : Text} {s : Statement} (h : s ∈ statements src) :
    '\n' ∉ s.text := by
  obtain ⟨l, hl, hs⟩ := List.mem_flatMap.1 h
  exact fun hm => newline_not_mem_logicalLine hl (LogicalLine.subset_of_mem hs hm)

theorem newline_not_mem_node {src : Text} {n : Node} (h : n ∈ (Flowchart.ofSource src).nodes) :
    '\n' ∉ n.label := by
  obtain ⟨drawn, sources, hnodes, hsub, hdrawn⟩ := Builder.fresh.run_nodes src
  have hmem : n ∈ drawn := by
    have hall : (Flowchart.ofSource src).nodes = [] ++ drawn := hnodes
    rwa [hall] at h
  obtain ⟨s, hs, id, t, ht, rfl⟩ := exists_of_mem_left hdrawn hmem
  have hline := newline_not_mem_statement (hsub.subset hs)
  refine Kind.newline_not_mem_label _ ?_
  rcases ht with rfl | rfl
  · exact hline
  · exact fun hm => hline (afterClosers_subset s.text hm)

end CodeChart
