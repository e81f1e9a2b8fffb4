import CodeChart.Flowchart.Kind

/-!
# Statements whose first word is no keyword

A table of words is read by whole words, so a first word that stands in none of them decides that
a statement is a plain one, whatever follows it.

* `IsPlainStart`   a word that is in no table, and a rest that does not go on with it;
* `IsPlainStart.declares_eq`, `isSkipped_eq`, `afterElse?_eq`, `ofText_eq`   how a text that starts
                   so is read.
-/

namespace CodeChart

/-- the words that something is decided by -/
def keywords : List Text :=
  declarationWords ++ loopWords ++ jumpWords ++ ["using".toList, "if".toList, "else".toList,
    "switch".toList, "case".toList, "default".toList, "do".toList, "try".toList, "catch".toList]

/-- a text that starts with `template` is skipped, whatever word it starts -/
structure IsPlainStart (word rest : Text) : Prop where
  nonempty : word ≠ []
  letters : word.all isWord = true
  free : word ∉ keywords
  notTemplate : ¬ "template".toList <+: word
  ends : continuesWord rest = false

instance (word rest : Text) : Decidable (IsPlainStart word rest) :=
  decidable_of_iff (word ≠ [] ∧ word.all isWord = true ∧ word ∉ keywords ∧
      ¬ "template".toList <+: word ∧ continuesWord rest = false)
    ⟨fun ⟨hn, hl, hf, ht, he⟩ => ⟨hn, hl, hf, ht, he⟩,
      fun ⟨hn, hl, hf, ht, he⟩ => ⟨hn, hl, hf, ht, he⟩⟩

theorem keywords_letters : ∀ w ∈ keywords, w.all isWord = true := by decide +kernel

/-- letters that a text starts with are those of its first word -/
theorem prefix_of_letters {w word rest : Text} (hw : w.all isWord = true)
    (hr : continuesWord rest = false) (h : w <+: word ++ rest) : ∃ u, word = w ++ u := by
  obtain ⟨s, hs⟩ := h
  rcases List.append_eq_append_iff.1 hs with ⟨u, hu, _⟩ | ⟨u, hu, htail⟩
  · exact ⟨u, hu⟩
  · cases u with
    | nil => exact ⟨[], by rw [hu]; simp⟩
    | cons d u =>
      have hd : isWord d = true := List.all_eq_true.1 hw d (by rw [hu]; simp)
      rw [htail, List.cons_append, continuesWord_cons, hd] at hr
      cases hr

section
variable {word rest : Text} (h : IsPlainStart word rest)
include h

theorem IsPlainStart.isWord : ∀ c ∈ word, isWord c = true := List.all_eq_true.1 h.letters

theorem IsPlainStart.not_mem {c : Char} (hc : CodeChart.isWord c = false) : c ∉ word := by
  intro hm
  rw [h.isWord c hm] at hc
  cases hc

/-- the first word goes on behind a keyword that it starts with -/
theorem IsPlainStart.next_letter {w : Text} (hw : w ∈ keywords) (hp : w <+: word ++ rest) :
    ∃ c u, (word ++ rest).drop w.length = c :: u ∧ CodeChart.isWord c = true := by
  obtain ⟨u, hu⟩ := prefix_of_letters (keywords_letters w hw) h.ends hp
  cases u with
  | nil =>
    rw [List.append_nil] at hu
    exact absurd (hu ▸ hw) h.free
  | cons c u =>
    refine ⟨c, u ++ rest, ?_, h.isWord c (by rw [hu]; simp)⟩
    rw [hu, List.append_assoc, List.drop_left]
    rfl

theorem IsPlainStart.not_blank_after {w : Text} (hw : w ∈ keywords) :
    (w.isPrefixOf (word ++ rest) && ((word ++ rest).drop w.length).head?.any isBlank) = false := by
  rw [Bool.and_eq_false_iff]
  by_cases hp : w <+: word ++ rest
  · obtain ⟨c, u, hdrop, hc⟩ := h.next_letter hw hp
    right
    rw [hdrop]
    exact isBlank_of_isWord hc
  · left
    rw [← Bool.not_eq_true, List.isPrefixOf_iff_prefix]
    exact hp

theorem IsPlainStart.declares_eq : declares (word ++ rest) = false := by
  have hmem : ∀ w ∈ declarationWords, w ∈ keywords := by decide
  rw [declares, List.any_eq_false]
  intro w hw hd
  rw [declaresWith, h.not_blank_after (hmem w hw)] at hd
  cases hd

theorem IsPlainStart.afterElse?_eq : afterElse? (word ++ rest) = none := by
  refine if_neg ?_
  rw [h.not_blank_after (by decide)]
  exact Bool.false_ne_true

theorem IsPlainStart.isSkipped_eq : isSkipped (word ++ rest) = false := by
  have hno : ∀ c, CodeChart.isWord c = false → ∀ u t, c :: u ≠ word ++ t := by
    intro c hc u t heq
    cases hword : word with
    | nil => exact h.nonempty hword
    | cons d v =>
      rw [hword] at heq
      obtain ⟨rfl, _⟩ := List.cons.inj heq
      rw [h.isWord c (by rw [hword]; simp)] at hc
      cases hc
  rw [isSkipped, List.any_eq_false]
  intro w hw hp
  rw [List.isPrefixOf_iff_prefix] at hp
  simp only [skippedStarts, List.mem_cons, List.not_mem_nil, or_false] at hw
  rcases hw with rfl | rfl | rfl
  · obtain ⟨s, hs⟩ := hp
    exact hno '#' (by decide) _ _ hs
  · -- `using` is followed by a blank there, and by a letter here
    have husing : "using".toList <+: word ++ rest :=
      List.IsPrefix.trans (by decide) hp
    obtain ⟨c, u, hdrop, hc⟩ := h.next_letter (by decide) husing
    obtain ⟨s, hs⟩ := hp
    rw [← hs] at hdrop
    obtain ⟨rfl, _⟩ := List.cons.inj hdrop
    exact absurd hc (by decide)
  · obtain ⟨u, hu⟩ := prefix_of_letters (by decide) h.ends hp
    exact h.notTemplate ⟨u, hu.symm⟩

theorem IsPlainStart.startsWithWord_eq {w : Text} (hw : w ∈ keywords) :
    startsWithWord w (word ++ rest) = false := by
  rw [← Bool.not_eq_true,
    startsWithWord_append_iff (List.all_eq_true.1 (keywords_letters w hw)) h.isWord h.ends]
  rintro rfl
  exact h.free hw

theorem IsPlainStart.ofText_eq : Kind.ofText (word ++ rest) = .plain := by
  have hany : ∀ words, (∀ w ∈ words, w ∈ keywords) →
      startsWithAny words (word ++ rest) = false := by
    intro words hw
    rw [startsWithAny, List.any_eq_false]
    intro w hm
    rw [h.startsWithWord_eq (hw w hm)]
    exact Bool.false_ne_true
  have hif : startsConditional (word ++ rest) = false := by
    rw [startsConditional, h.afterElse?_eq]
    exact h.startsWithWord_eq (by decide)
  have hlabel : startsLabel (word ++ rest) = false := by
    rw [startsLabel, h.startsWithWord_eq (w := "case".toList) (by decide),
      h.startsWithWord_eq (w := "default".toList) (by decide)]
    rfl
  rw [Kind.ofText, hif, hlabel, hany loopWords (by decide), hany jumpWords (by decide),
    h.startsWithWord_eq (w := "else".toList) (by decide),
    h.startsWithWord_eq (w := "switch".toList) (by decide),
    h.startsWithWord_eq (w := "do".toList) (by decide),
    h.startsWithWord_eq (w := "try".toList) (by decide),
    h.startsWithWord_eq (w := "catch".toList) (by decide)]
  rfl

end

end CodeChart
