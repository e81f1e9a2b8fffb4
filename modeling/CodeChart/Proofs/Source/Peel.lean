import CodeChart.Proofs.Source.Around

/-!
# Headers in front of a body

What the two functions that peel a header off a statement find in it, as a split of the statement
into its parts.

* `afterElse?_eq_some_iff`, `elseBody?_eq_some_iff`   an `else`, blanks and a body;
* `ConditionLead`       what may stand before the parenthesis of a condition
                        (`opensCondition_iff`);
* `exists_group`        the parenthesis that closes a group, found: the group is balanced;
* `conditionBody?_eq_some_iff`   a lead, a balanced group and a body;
* `IsLeadIn`            a text that a reader passes over; `segments_leadIn` says that what comes
                        behind it is cut as if it stood alone, if it is no label.
-/

namespace CodeChart

theorem head?_trim (t : Text) : (trim t).head? = nextVisible t := by
  cases h : nextVisible t with
  | none =>
    rw [trim_of_allBlank (nextVisible_eq_none_iff.1 h)]
    rfl
  | some c =>
    obtain ⟨gap, rest, hgap, rfl⟩ := exists_nextVisible h
    rw [trim_blank_append hgap, trim_cons_of_visible (isBlank_of_nextVisible h)]
    rfl

/-! ## a bare else -/

theorem afterElse?_eq_some_iff {t u : Text} : afterElse? t = some u ↔
    ∃ gap, allBlank gap = true ∧ gap ≠ [] ∧ trimLeft u = u ∧ t = "else".toList ++ (gap ++ u) := by
  constructor
  · intro h
    simp only [afterElse?] at h
    split at h
    · rename_i hp
      rw [Bool.and_eq_true, List.isPrefixOf_iff_prefix] at hp
      obtain ⟨⟨rest, rfl⟩, hblank⟩ := hp
      rw [List.drop_left] at h hblank
      obtain ⟨gap, hgap, hrest⟩ := exists_trimLeft rest
      refine ⟨gap, hgap, ?_, ?_, ?_⟩
      · rintro rfl
        cases rest with
        | nil => cases hblank
        | cons c rest =>
          have hle := length_trimLeft_le rest
          rw [← trimLeft_cons_of_blank hblank, ← List.nil_append (trimLeft _), ← hrest] at hle
          exact Nat.not_succ_le_self _ hle
      · rw [← Option.some.inj h, ← trimLeft_blank_append hgap, ← hrest]
      · rw [← Option.some.inj h, ← hrest]
    · cases h
  · rintro ⟨gap, hgap, hne, hu, rfl⟩
    have hblank : (gap ++ u).head?.any isBlank = true := by
      cases gap with
      | nil => exact absurd rfl hne
      | cons c gap => exact List.all_eq_true.1 hgap c List.mem_cons_self
    have hprefix : "else".toList.isPrefixOf ("else".toList ++ (gap ++ u)) = true :=
      List.isPrefixOf_iff_prefix.2 (List.prefix_append _ _)
    simp only [afterElse?]
    rw [List.drop_left, hblank, hprefix, Bool.and_self, if_pos rfl, trimLeft_blank_append hgap, hu]

theorem singleLine?_of_oneLine {t : Text} (h : '\n' ∉ t) : singleLine? t = some t := by
  have hdrop : t.dropWhile (· ≠ '\n') = [] := by
    rw [List.dropWhile_eq_nil_iff]
    intro c hc
    rw [decide_eq_true_iff]
    rintro rfl
    exact h hc
  simp only [singleLine?, hdrop]

/-- the body of a bare `else` opens no block and is no conditional -/
structure IsElseBody (body : Text) : Prop where
  start : trimLeft body = body
  nonempty : body ≠ []
  noBrace : body.head? ≠ some '{'
  noIf : startsWithWord "if".toList body = false

theorem elseBody?_of_afterElse {t u : Text} (hn : '\n' ∉ u) (h : afterElse? t = some u) :
    elseBody? t = if u.isEmpty || u.head? = some '{' || startsWithWord "if".toList u then none
      else some u := by
  rw [elseBody?, h]
  simp only [singleLine?_of_oneLine hn]

theorem elseBody?_eq_some_iff {t body : Text} (hn : '\n' ∉ t) : elseBody? t = some body ↔
    ∃ gap, allBlank gap = true ∧ gap ≠ [] ∧ IsElseBody body ∧
      t = "else".toList ++ (gap ++ body) := by
  have hline : ∀ gap u, t = "else".toList ++ (gap ++ u) → '\n' ∉ u := by
    rintro gap u rfl hu
    exact hn (List.mem_append_right _ (List.mem_append_right _ hu))
  constructor
  · intro h
    cases hu : afterElse? t with
    | none =>
      rw [elseBody?, hu] at h
      cases h
    | some u =>
      obtain ⟨gap, hgap, hne, htrim, ht⟩ := afterElse?_eq_some_iff.1 hu
      rw [elseBody?_of_afterElse (hline gap u ht) hu] at h
      split at h
      · cases h
      · rename_i hbody
        rw [Bool.or_eq_true, Bool.or_eq_true, not_or, not_or, List.isEmpty_iff,
          decide_eq_true_iff, Bool.not_eq_true] at hbody
        rw [← Option.some.inj h]
        exact ⟨gap, hgap, hne, ⟨htrim, hbody.1.1, hbody.1.2, hbody.2⟩, ht⟩
  · rintro ⟨gap, hgap, hne, hbody, ht⟩
    have hu := afterElse?_eq_some_iff.2 ⟨gap, hgap, hne, hbody.start, ht⟩
    rw [elseBody?_of_afterElse (hline gap body ht) hu, if_neg]
    rw [Bool.or_eq_true, Bool.or_eq_true, not_or, not_or, List.isEmpty_iff, decide_eq_true_iff,
      Bool.not_eq_true]
    exact ⟨⟨hbody.nonempty, hbody.noBrace⟩, hbody.noIf⟩

/-! ## the lead of a condition -/

/-- what may stand before the parenthesis of a condition -/
inductive ConditionLead : Text → Prop
  | word {word gap : Text} (hw : word ∈ conditionWords) (hg : allBlank gap = true) :
      ConditionLead (word ++ gap)
  | afterElse {blanks word gap : Text} (hb : allBlank blanks = true) (hne : blanks ≠ [])
      (hw : word ∈ conditionWords) (hg : allBlank gap = true) :
      ConditionLead ("else".toList ++ (blanks ++ (word ++ gap)))

theorem mem_conditionWords {w : Text} (h : w ∈ conditionWords) :
    w = "if".toList ∨ w = "while".toList ∨ w = "for".toList ∨ w = "switch".toList ∨
      w = "catch".toList := by
  simpa only [conditionWords, List.mem_cons, List.not_mem_nil, or_false] using h

/-- what a text of blanks and one of the words is in front of -/
theorem afterElse?_of_word {w : Text} (h : w ∈ conditionWords) (r : Text) :
    afterElse? (w ++ r) = none ∧ trimLeft (w ++ r) = w ++ r := by
  rcases mem_conditionWords h with rfl | rfl | rfl | rfl | rfl <;> exact ⟨rfl, rfl⟩

theorem ConditionLead.visible {w : Text} (h : ConditionLead w) :
    ∃ c r, w = c :: r ∧ isBlank c = false := by
  cases h with
  | word hw hg =>
    rcases mem_conditionWords hw with rfl | rfl | rfl | rfl | rfl <;>
      exact ⟨_, _, rfl, by decide⟩
  | afterElse hb hne hw hg => exact ⟨'e', _, rfl, by decide⟩

theorem ConditionLead.isInert {w : Text} (h : ConditionLead w) : ∀ c ∈ w, isInert c = true := by
  have hblank : ∀ {gap : Text}, allBlank gap = true → ∀ c ∈ gap, CodeChart.isInert c = true :=
    fun hgap c hc => isInert_of_isBlank (List.all_eq_true.1 hgap c hc)
  have hwords : ∀ w ∈ conditionWords, w.all CodeChart.isInert = true := by decide
  have helse : "else".toList.all CodeChart.isInert = true := by decide
  intro c hc
  cases h with
  | word hw hg =>
    rcases List.mem_append.1 hc with hc | hc
    · exact List.all_eq_true.1 (hwords _ hw) c hc
    · exact hblank hg c hc
  | afterElse hb hne hw hg =>
    rcases List.mem_append.1 hc with hc | hc
    · exact List.all_eq_true.1 helse c hc
    rcases List.mem_append.1 hc with hc | hc
    · exact hblank hb c hc
    rcases List.mem_append.1 hc with hc | hc
    · exact List.all_eq_true.1 (hwords _ hw) c hc
    · exact hblank hg c hc

theorem ConditionLead.no_parenthesis {w : Text} (h : ConditionLead w) : '(' ∉ w := fun hm =>
  absurd (h.isInert _ hm) (by decide)

/-- the parenthesis behind the lead is the first one -/
theorem ConditionLead.idxOf_eq {w : Text} (h : ConditionLead w) (r : Text) :
    (w ++ '(' :: r).idxOf '(' = w.length := by
  rw [List.idxOf_append, if_neg h.no_parenthesis, List.idxOf_cons_self, Nat.zero_add]

/-- a condition and a label start with different words -/
theorem ConditionLead.startsLabel_eq {w : Text} (h : ConditionLead w) (r : Text) :
    startsLabel (w ++ r) = false := by
  cases h with
  | word hw hg =>
    rcases mem_conditionWords hw with rfl | rfl | rfl | rfl | rfl <;> rfl
  | afterElse hb hne hw hg => rfl

theorem opensGroup_iff {t word : Text} : opensGroup t word = true ↔
    ∃ gap rest, allBlank gap = true ∧ t = word ++ (gap ++ '(' :: rest) := by
  rw [opensGroup, Bool.and_eq_true, List.isPrefixOf_iff_prefix, beq_iff_eq]
  constructor
  · rintro ⟨⟨u, rfl⟩, hu⟩
    rw [List.drop_left] at hu
    obtain ⟨gap, rest, hgap, rfl⟩ := exists_nextVisible hu
    exact ⟨gap, rest, hgap, rfl⟩
  · rintro ⟨gap, rest, hgap, rfl⟩
    refine ⟨List.prefix_append _ _, ?_⟩
    rw [List.drop_left, nextVisible_blank_append hgap, nextVisible_cons_of_visible (by decide)]

theorem opensCondition_iff {t : Text} : opensCondition t = true ↔
    ∃ lead rest, ConditionLead lead ∧ t = lead ++ '(' :: rest := by
  rw [opensCondition, List.any_eq_true]
  constructor
  · rintro ⟨word, hword, hopen⟩
    obtain ⟨gap, rest, hgap, ht⟩ := opensGroup_iff.1 hopen
    cases hu : afterElse? t with
    | none =>
      rw [hu, Option.getD_none] at ht
      exact ⟨word ++ gap, rest, .word hword hgap, by rw [ht, List.append_assoc]⟩
    | some u =>
      rw [hu, Option.getD_some] at ht
      obtain ⟨blanks, hb, hne, _, rfl⟩ := afterElse?_eq_some_iff.1 hu
      refine ⟨_, rest, .afterElse hb hne hword hgap, ?_⟩
      rw [ht]
      simp
  · rintro ⟨lead, rest, hlead, rfl⟩
    cases hlead with
    | @word word gap hw hg =>
      refine ⟨word, hw, ?_⟩
      rw [List.append_assoc, (afterElse?_of_word hw _).1]
      exact opensGroup_iff.2 ⟨gap, rest, hg, rfl⟩
    | @afterElse blanks word gap hb hne hw hg =>
      have hu : afterElse? ("else".toList ++ (blanks ++ (word ++ gap)) ++ '(' :: rest)
          = some (word ++ (gap ++ '(' :: rest)) :=
        afterElse?_eq_some_iff.2 ⟨blanks, hb, hne, (afterElse?_of_word hw _).2, by simp⟩
      refine ⟨word, hw, ?_⟩
      rw [hu]
      exact opensGroup_iff.2 ⟨gap, rest, hg, rfl⟩

/-- `else if` alone stays together, whatever the condition is -/
theorem ConditionLead.elseBody?_eq_none {lead r r' : Text} (hl : ConditionLead lead)
    (hn : '\n' ∉ lead ++ '(' :: r) (hn' : '\n' ∉ lead ++ '(' :: r')
    (h : elseBody? (lead ++ '(' :: r) = none) : elseBody? (lead ++ '(' :: r') = none := by
  cases hl with
  | @word word gap hw hg =>
    rw [List.append_assoc, elseBody?, (afterElse?_of_word hw _).1]
  | @afterElse blanks word gap hb hne hw hg =>
    have hafter : ∀ r, afterElse? ("else".toList ++ (blanks ++ (word ++ gap)) ++ '(' :: r)
        = some (word ++ (gap ++ '(' :: r)) := fun r =>
      afterElse?_eq_some_iff.2 ⟨blanks, hb, hne, (afterElse?_of_word hw _).2, by simp⟩
    have hline : ∀ r, '\n' ∉ "else".toList ++ (blanks ++ (word ++ gap)) ++ '(' :: r →
        '\n' ∉ word ++ (gap ++ '(' :: r) := by
      intro r hr hm
      refine hr ?_
      rw [List.append_assoc, List.append_assoc, List.append_assoc]
      exact List.mem_append_right _ (List.mem_append_right _ hm)
    have hword : ∀ r, continuesWord (gap ++ '(' :: r) = false := by
      intro r
      cases gap with
      | nil => exact continuesWord_cons '(' r
      | cons c gap => exact isWord_of_isBlank (List.all_eq_true.1 hg c List.mem_cons_self)
    have hletters : ∀ c ∈ "if".toList, isWord c = true := List.all_eq_true.1 (by decide +kernel)
    have hif : ∀ r, startsWithWord "if".toList ("if".toList ++ (gap ++ '(' :: r)) = true := fun r =>
      (startsWithWord_append_iff hletters hletters (hword r)).2 rfl
    rw [elseBody?_of_afterElse (hline r hn) (hafter r)] at h
    rw [elseBody?_of_afterElse (hline r' hn') (hafter r')]
    rcases mem_conditionWords hw with rfl | rfl | rfl | rfl | rfl
    · rw [hif r', Bool.or_true, if_pos rfl]
    all_goals cases h

/-! ## the group of a condition -/

/-- the parenthesis that is found closes a balanced text -/
theorem exists_balanced {depth : Nat} {l : Literal} {t : Text} {n : Nat}
    (h : closeOffset? (depth + 1 : Nat) l t = some n) :
    ∃ g rest, t = g ++ ')' :: rest ∧ g.length = n ∧ isBalanced depth l g = true := by
  induction t generalizing depth l n with
  | nil => cases h
  | cons c t ih =>
    rw [closeOffset?_cons (Nat.succ_pos _)] at h
    cases hparens : parensAfter l (depth + 1) c with
    | zero =>
      obtain ⟨rfl, rfl, hone⟩ := eq_of_parensAfter_eq_zero (Nat.succ_pos _) hparens
      obtain rfl : depth = 0 := Nat.succ.inj hone
      rw [hparens, if_pos rfl] at h
      rw [← Option.some.inj h]
      exact ⟨[], t, rfl, rfl, rfl⟩
    | succ depth' =>
      rw [hparens, if_neg (Nat.succ_ne_zero _)] at h
      obtain ⟨m, hm, rfl⟩ := Option.map_eq_some_iff.1 h
      obtain ⟨g, rest, rfl, rfl, hg⟩ := ih hm
      exact ⟨c :: g, rest, rfl, rfl, isBalanced_cons_iff.2 ⟨depth', hparens, hg⟩⟩

theorem exists_group {lead r : Text} {i : Nat}
    (h : closingParen? (lead ++ '(' :: r) lead.length = some i) :
    ∃ g rest, r = g ++ ')' :: rest ∧ isBalanced 0 .outside g = true ∧
      i = lead.length + (g.length + 1) := by
  rw [closingParen?_behind] at h
  obtain ⟨n, hn, rfl⟩ := Option.map_eq_some_iff.1 h
  obtain ⟨g, rest, rfl, rfl, hg⟩ := @exists_balanced 0 _ _ _ hn
  exact ⟨g, rest, rfl, hg, rfl⟩

/-! ## a header and its body -/

/-- a body follows: something that is neither a block nor the end of the statement -/
def HasBody (rest : Text) : Prop := ∃ c, nextVisible rest = some c ∧ c ≠ '{' ∧ c ≠ ';'

section
variable {lead g : Text} (hl : ConditionLead lead) (hg : isBalanced 0 .outside g = true)
include hl hg

theorem ConditionLead.conditionBody?_eq (rest : Text) :
    conditionBody? (lead ++ '(' :: (g ++ ')' :: rest)) =
      if (trim rest).isEmpty || (trim rest).head? = some '{' || (trim rest).head? = some ';' then
        none
      else some (lead ++ '(' :: (g ++ [')']), trim rest) := by
  have hlength : (lead ++ '(' :: (g ++ [')'])).length = lead.length + (g.length + 1) + 1 := by
    simp [Nat.add_assoc]
  have hopen : opensCondition (lead ++ '(' :: (g ++ ')' :: rest)) = true :=
    opensCondition_iff.2 ⟨lead, _, hl, rfl⟩
  simp only [conditionBody?]
  rw [if_pos hopen, hl.idxOf_eq, closingParen?_of_group hg, header_append]
  simp only [List.drop_left' hlength, List.take_left' hlength]

theorem ConditionLead.conditionBody?_of_body {rest : Text} (h : HasBody rest) :
    conditionBody? (lead ++ '(' :: (g ++ ')' :: rest))
      = some (lead ++ '(' :: (g ++ [')']), trim rest) := by
  obtain ⟨c, hc, hbrace, hsemi⟩ := h
  rw [← head?_trim] at hc
  obtain ⟨r, hr⟩ := List.head?_eq_some_iff.1 hc
  rw [hl.conditionBody?_eq hg, hr]
  simp [hbrace, hsemi]

theorem ConditionLead.conditionBody?_of_no_body {rest : Text} (h : ¬ HasBody rest) :
    conditionBody? (lead ++ '(' :: (g ++ ')' :: rest)) = none := by
  rw [hl.conditionBody?_eq hg, if_pos]
  cases hr : nextVisible rest with
  | none =>
    rw [trim_of_allBlank (nextVisible_eq_none_iff.1 hr)]
    rfl
  | some c =>
    have hc : c = '{' ∨ c = ';' := by
      by_contra hne
      rw [not_or] at hne
      exact h ⟨c, hr, hne⟩
    rw [← head?_trim] at hr
    rcases hc with rfl | rfl <;> simp [hr]

end

theorem conditionBody?_eq_some {t header body : Text} (h : conditionBody? t = some (header, body)) :
    ∃ lead g rest, ConditionLead lead ∧ isBalanced 0 .outside g = true ∧ HasBody rest ∧
      t = lead ++ '(' :: (g ++ ')' :: rest) ∧ header = lead ++ '(' :: (g ++ [')']) ∧
      body = trim rest := by
  have hopen : opensCondition t = true := by
    by_contra hno
    rw [conditionBody?, if_neg hno] at h
    cases h
  obtain ⟨lead, r, hlead, rfl⟩ := opensCondition_iff.1 hopen
  cases hi : closingParen? (lead ++ '(' :: r) lead.length with
  | none =>
    rw [conditionBody?, if_pos hopen, hlead.idxOf_eq, hi] at h
    cases h
  | some i =>
    obtain ⟨g, rest, rfl, hg, _⟩ := exists_group hi
    by_cases hbody : HasBody rest
    · rw [hlead.conditionBody?_of_body hg hbody] at h
      cases h
      exact ⟨lead, g, rest, hlead, hg, hbody, rfl, rfl, rfl⟩
    · rw [hlead.conditionBody?_of_no_body hg hbody] at h
      cases h

/-- a header that is peeled off is left as it is -/
theorem ConditionLead.peelHeaders_eq {lead g rest : Text} (hl : ConditionLead lead)
    (hg : isBalanced 0 .outside g = true) (hn : '\n' ∉ lead ++ '(' :: (g ++ ')' :: rest))
    (he : elseBody? (lead ++ '(' :: (g ++ ')' :: rest)) = none) :
    peelHeaders (lead ++ '(' :: (g ++ [')'])) = [lead ++ '(' :: (g ++ [')'])] := by
  have hn' : '\n' ∉ lead ++ '(' :: (g ++ [')']) := by
    intro hm
    refine hn ?_
    rw [header_append]
    exact List.mem_append_left _ hm
  refine peelHeaders_of_none (hl.elseBody?_eq_none hn hn' he) (hl.conditionBody?_of_no_body hg ?_)
  rintro ⟨c, hc, _⟩
  cases hc

/-- nothing is peeled off a label -/
theorem peelHeaders_of_label {t : Text} (h : startsLabel t = true) : peelHeaders t = [t] := by
  have helse : afterElse? t = none := by
    cases hu : afterElse? t with
    | none => rfl
    | some u =>
      obtain ⟨gap, _, _, _, rfl⟩ := afterElse?_eq_some_iff.1 hu
      cases h
  refine peelHeaders_of_none (by rw [elseBody?, helse]) ?_
  cases hc : conditionBody? t with
  | none => rfl
  | some p =>
    obtain ⟨lead, g, rest, hlead, _, _, rfl, _⟩ := conditionBody?_eq_some hc
    rw [hlead.startsLabel_eq] at h
    cases h

/-! ## what a reader passes over -/

/-- a text that is read without a cut, and behind which nothing is cut differently but a label -/
structure IsLeadIn (w : Text) : Prop where
  kept : IsKept w
  visible : ∃ c r, w = c :: r ∧ isBlank c = false
  word : continuesWord w.reverse = false
  initializer : opensInitializer w.reverse = false
  label : ∀ r, startsLabel (w ++ r) = false

theorem isLeadIn_else {gap : Text} (hg : allBlank gap = true) (hne : gap ≠ []) :
    IsLeadIn ("else".toList ++ gap) where
  kept := (isKept_of_inert (List.all_eq_true.1 (by decide))).append (isKept_of_allBlank hg)
  visible := ⟨'e', _, rfl, by decide⟩
  word := by
    obtain ⟨u, c, rfl⟩ := (List.eq_nil_or_concat' gap).resolve_left hne
    rw [← List.append_assoc, List.reverse_append]
    exact isWord_of_isBlank (List.all_eq_true.1 hg c (by simp))
  initializer := by
    have hrev : allBlank gap.reverse = true := by rwa [allBlank, List.all_reverse]
    refine @opensInitializer_of_head _ ['s', 'l', 'e'] 'e' ?_ (by decide) (by decide)
      (by decide)
    rw [List.reverse_append, trimLeft_blank_append hrev]
    rfl
  label _ := rfl

theorem ConditionLead.isLeadIn {lead g gap : Text} (hl : ConditionLead lead)
    (hg : isBalanced 0 .outside g = true) (hgap : allBlank gap = true) :
    IsLeadIn (lead ++ '(' :: (g ++ ')' :: gap)) where
  kept := by
    rw [header_append]
    exact ((isKept_of_inert hl.isInert).append (isKept_group hg)).append (isKept_of_allBlank hgap)
  visible := by
    obtain ⟨c, r, rfl, hc⟩ := hl.visible
    exact ⟨c, _, rfl, hc⟩
  word := by
    have hrev : (lead ++ '(' :: (g ++ ')' :: gap)).reverse
        = gap.reverse ++ ')' :: (lead ++ '(' :: g).reverse := by simp
    rw [hrev]
    cases hr : gap.reverse with
    | nil => exact continuesWord_cons _ _
    | cons c u =>
      have hc : c ∈ gap := List.mem_reverse.1 (by rw [hr]; exact List.mem_cons_self)
      exact isWord_of_isBlank (List.all_eq_true.1 hgap c hc)
  initializer := by
    have hrev : allBlank gap.reverse = true := by rwa [allBlank, List.all_reverse]
    refine @opensInitializer_of_head _ (lead ++ '(' :: g).reverse ')' ?_ (by decide)
      (by decide) (by decide)
    have hsplit : (lead ++ '(' :: (g ++ ')' :: gap)).reverse
        = gap.reverse ++ ')' :: (lead ++ '(' :: g).reverse := by simp
    rw [hsplit, trimLeft_blank_append hrev, trimLeft_cons_of_visible (by decide)]
  label r := by
    have hsplit : lead ++ '(' :: (g ++ ')' :: gap) ++ r = lead ++ ('(' :: (g ++ ')' :: gap) ++ r) :=
      List.append_assoc _ _ _
    rw [hsplit, hl.startsLabel_eq]

/-- a colon does not make a label out of the text in front of it -/
theorem startsLabel_append_colon (t r : Text) : startsLabel (t ++ ':' :: r) = startsLabel t := by
  have hcolon : continuesWord (':' :: r) = false := continuesWord_cons ':' r
  rw [startsLabel, startsLabel, startsWithWord_append (by decide +kernel) hcolon,
    startsWithWord_append (by decide +kernel) hcolon]

section
variable {w rest : Text} (hw : IsLeadIn w) (hrest : startsLabel (trimLeft rest) = false)
include hw

include hrest

theorem IsLeadIn.sameBehind {s : Text} {c : Char} (hs : s ++ [c] <+: rest) :
    SameBehind w.reverse [] (s.reverse ++ []) c := by
  rw [List.append_nil]
  refine ⟨by rw [opensInitializer_append hw.word hw.initializer, List.append_nil], ?_⟩
  rintro rfl after
  have hlabel : ∀ pending : Text, startsLabel (trim (':' :: pending).reverse) = false →
      endsLabel pending after = false := by
    intro pending h
    rw [endsLabel, h, Bool.and_false, Bool.false_and]
  rw [hlabel, hlabel]
  · -- behind nothing: the label would be the beginning of `rest`
    obtain ⟨more, rfl⟩ := hs
    rw [List.append_nil, List.reverse_cons, List.reverse_reverse, trim_append_colon,
      startsLabel_append_colon]
    rwa [List.append_assoc, List.singleton_append, trimLeft_append_cons (by decide),
      startsLabel_append_colon] at hrest
  · obtain ⟨d, r, rfl, hd⟩ := hw.visible
    have hrev : (':' :: (s.reverse ++ (d :: r).reverse)).reverse = d :: (r ++ s ++ [':']) := by simp
    rw [hrev, trim_of_visible_ends hd (by decide), ← List.cons_append, ← List.cons_append,
      startsLabel_append_colon, hw.label]

/-- **the first piece takes the lead-in with it**, and nothing else changes -/
theorem segments_leadIn : ∃ s more, s <+: rest ∧ segments (w ++ rest) = trim (w ++ s) :: more ∧
    segments rest = segment s.reverse ++ more := by
  obtain ⟨s, more, hs, hwith, hwithout⟩ :=
    Reader.fresh.pieces_behind (t := rest) fun s c hsc => hw.sameBehind hrest hsc
  refine ⟨s, more, hs, ?_, ?_⟩
  · have hread : Reader.fresh.read w rest = (Reader.fresh.behind w.reverse, []) := by
      have hkept := hw.kept [] rest
      rwa [List.append_nil] at hkept
    have hpending : trim (s.reverse ++ Reader.fresh.pending ++ w.reverse).reverse
        = trim (w ++ s) := by
      show trim (s.reverse ++ [] ++ w.reverse).reverse = _
      simp
    have hne : trim (w ++ s) ≠ [] := by
      obtain ⟨d, r, rfl, hd⟩ := hw.visible
      rw [List.cons_append, trim_cons_of_visible hd]
      exact List.cons_ne_nil _ _
    rw [segments_eq, Reader.pieces_append, hread, hwith, segment_of_visible (hpending ▸ hne),
      hpending]
    rfl
  · rw [segments_eq]
    show (Reader.fresh.behind []).pieces rest = _
    rw [hwithout]
    show segment (s.reverse ++ [] ++ []) ++ more = _
    rw [List.append_nil, List.append_nil]

/-- behind a lead-in that belongs to one piece, a body is one piece as well -/
theorem IsLeadIn.segments_body (htrim : IsTrimmed rest) (h : segments (w ++ rest) = [w ++ rest]) :
    segments rest = [rest] := by
  obtain ⟨s, more, hs, hwith, hwithout⟩ := segments_leadIn hw hrest
  rw [h] at hwith
  obtain ⟨hfirst, rfl⟩ := List.cons.inj hwith
  have hlength := congrArg List.length hfirst
  have hle := length_trim_le (w ++ s)
  rw [List.length_append] at hlength hle
  have heq : s = rest := hs.eq_of_length (Nat.le_antisymm hs.length_le (by omega))
  rw [hwithout, heq, segment_reverse htrim.trimmed htrim.nonempty, List.append_nil]

end

end CodeChart
