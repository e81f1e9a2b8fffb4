import CodeChart.Flowchart.Label
import CodeChart.Proofs.Source.Peel

/-!
# The condition of a header

A statement is cut behind the parenthesis that closes its condition, and that parenthesis is found
by a reader that knows literals.  The label of the statement takes the text up to the last
parenthesis of the line, and then counts the parentheses of that text without regard to literals.

* `KeywordLead`           a keyword, and what stands in front of the parenthesis behind it;
* `group?_of_lead`        the label finds the same group as the reader;
* `quotedPart`            the characters of a text that stand in literals;
* `count_of_isBalanced`   outside of literals, the parentheses of a group are paired;
* `LosesParen`, `condition_eq_iff`   the label is the condition unless its last parenthesis is taken
                          for a stray one, because of the parentheses in literals.
-/

namespace CodeChart

/-! ## finding the group -/

/-- `k` and blanks, or the same behind an `else` -/
inductive KeywordLead (k : Text) : Text → Prop
  | word {gap : Text} (hg : allBlank gap = true) : KeywordLead k (k ++ gap)
  | afterElse {blanks gap : Text} (hb : allBlank blanks = true) (hne : blanks ≠ [])
      (hg : allBlank gap = true) : KeywordLead k ("else".toList ++ (blanks ++ (k ++ gap)))

/-- the last parenthesis of the line, if none stands in the text behind it -/
theorem beforeLastParen?_eq {c r : Text} (hn : '\n' ∉ c ++ ')' :: r) (hr : ')' ∉ r) :
    beforeLastParen? (c ++ ')' :: r) = some c := by
  have hline : (c ++ ')' :: r).takeWhile (· ≠ '\n') = c ++ ')' :: r := by
    refine List.takeWhile_eq_self_iff.2 fun d hd => ?_
    rw [decide_eq_true_iff]
    rintro rfl
    exact hn hd
  have hback : (c ++ ')' :: r).reverse.dropWhile (· ≠ ')') = ')' :: c.reverse := by
    rw [List.reverse_append, List.reverse_cons, List.append_assoc, List.dropWhile_append_of_pos]
    · rfl
    · intro d hd
      rw [decide_eq_true_iff]
      rintro rfl
      exact hr (List.mem_reverse.1 hd)
  simp only [beforeLastParen?, hline, hback, List.reverse_reverse]

theorem groupAt?_of_word {k gap rest : Text} (hg : allBlank gap = true) :
    groupAt? k (k ++ gap ++ '(' :: rest) = beforeLastParen? rest := by
  have hprefix : k.isPrefixOf (k ++ (gap ++ '(' :: rest)) = true :=
    List.isPrefixOf_iff_prefix.2 (List.prefix_append _ _)
  rw [List.append_assoc, groupAt?, if_pos hprefix, List.drop_left, trimLeft_blank_append hg,
    trimLeft_cons_of_visible (by decide)]
  rfl

/-- where the keyword does not begin, the search goes on -/
theorem group?_cons_of_not {k t : Text} {c : Char} (h : k.isPrefixOf (c :: t) = false) :
    group? k (c :: t) = group? k t := by
  rw [group?, groupAt?, h]
  rfl

theorem group?_of_groupAt? {k t inner : Text} (h : groupAt? k t = some inner) :
    group? k t = some inner := by
  cases t with
  | nil => exact h
  | cons c t => rw [group?, h]

section
variable {k : Text} (hk : k ∈ conditionWords)
include hk

theorem group?_else (t : Text) : group? k ("else".toList ++ t) = group? k t := by
  rcases mem_conditionWords hk with rfl | rfl | rfl | rfl | rfl <;> rfl

theorem group?_blanks {blanks : Text} (hb : allBlank blanks = true) (t : Text) :
    group? k (blanks ++ t) = group? k t := by
  induction blanks with
  | nil => rfl
  | cons b blanks ih =>
    obtain ⟨hblank, hmore⟩ := Bool.and_eq_true_iff.1 hb
    have hnot : k.isPrefixOf (b :: (blanks ++ t)) = false := by
      obtain ⟨d, w, rfl, hvisible⟩ : ∃ d w, k = d :: w ∧ isBlank d = false := by
        rcases mem_conditionWords hk with rfl | rfl | rfl | rfl | rfl <;>
          exact ⟨_, _, rfl, by decide⟩
      have hne : (d == b) = false := by
        refine beq_eq_false_iff_ne.2 ?_
        rintro rfl
        rw [hvisible] at hblank
        cases hblank
      show ((d == b) && _) = false
      rw [hne, Bool.false_and]
    rw [List.cons_append, group?_cons_of_not hnot, ih hmore]

/-- the group of the label reaches up to the last parenthesis -/
theorem group?_of_lead {lead c r : Text} (hlead : KeywordLead k lead)
    (hn : '\n' ∉ lead ++ '(' :: (c ++ ')' :: r)) (hr : ')' ∉ r) :
    group? k (lead ++ '(' :: (c ++ ')' :: r)) = some c := by
  have hline : '\n' ∉ c ++ ')' :: r := fun hm =>
    hn (List.mem_append_right _ (List.mem_cons_of_mem _ hm))
  have hword : ∀ {gap : Text}, allBlank gap = true →
      group? k (k ++ gap ++ '(' :: (c ++ ')' :: r)) = some c := fun hg =>
    group?_of_groupAt? ((groupAt?_of_word hg).trans (beforeLastParen?_eq hline hr))
  cases hlead with
  | word hg => exact hword hg
  | afterElse hb hne hg =>
    rw [List.append_assoc, List.append_assoc, group?_else hk, group?_blanks hk hb, hword hg]

end

/-! ## parentheses in literals -/

/-- the characters that stand in literals, for a reader that begins at `l` -/
def quotedPart (l : Literal) : Text → Text
  | [] => []
  | c :: rest =>
    if l = .outside then quotedPart (l.next c) rest else c :: quotedPart (l.next c) rest

/-- only the parentheses outside of literals are paired -/
theorem count_of_isBalanced {depth : Nat} {l : Literal} {g : Text}
    (h : isBalanced depth l g = true) :
    depth + g.count '(' + (quotedPart l g).count ')'
      = g.count ')' + (quotedPart l g).count '(' := by
  induction g generalizing depth l with
  | nil =>
    simp only [isBalanced, Bool.and_eq_true, beq_iff_eq] at h
    obtain ⟨rfl, rfl⟩ := h
    rfl
  | cons c g ih =>
    obtain ⟨depth', hparens, hg⟩ := isBalanced_cons_iff.1 h
    have hpaired := ih hg
    rw [parensAfter] at hparens
    rw [quotedPart, List.count_cons, List.count_cons]
    by_cases hl : l = .outside
    · rw [if_pos hl] at hparens ⊢
      by_cases ho : c = '('
      · subst ho
        rw [if_pos rfl] at hparens
        rw [if_pos (by decide), if_neg (by decide)]
        omega
      rw [if_neg ho] at hparens
      by_cases hc : c = ')'
      · subst hc
        rw [if_pos rfl] at hparens
        rw [if_neg (by decide), if_pos (by decide)]
        omega
      · rw [if_neg hc] at hparens
        rw [if_neg (fun he => ho (beq_iff_eq.1 he)), if_neg (fun he => hc (beq_iff_eq.1 he))]
        omega
    · -- a character in a literal counts on both sides
      rw [if_neg hl] at hparens ⊢
      rw [List.count_cons, List.count_cons]
      omega

/-! ## the label -/

/-- the last parenthesis of a condition is dropped as a stray one -/
structure LosesParen (c : Text) : Prop where
  last : c.getLast? = some ')'
  quoted : (quotedPart .outside c).count '(' < (quotedPart .outside c).count ')'

theorem losesParen_iff {c : Text} (h : isBalanced 0 .outside c = true) :
    LosesParen c ↔ c.getLast? = some ')' ∧ c.count ')' > c.count '(' := by
  have hpaired := count_of_isBalanced h
  constructor
  · rintro ⟨hlast, hquoted⟩
    exact ⟨hlast, by omega⟩
  · rintro ⟨hlast, hcount⟩
    exact ⟨hlast, by omega⟩

/-- a parenthesis at the end does not go unnoticed -/
theorem trim_dropLast_ne {c : Text} (h : c.getLast? = some ')') : trim c.dropLast ≠ trim c := by
  obtain ⟨d, rfl⟩ : ∃ d, c = d ++ [')'] := by
    rcases List.eq_nil_or_concat' c with rfl | ⟨d, x, rfl⟩
    · cases h
    · rw [List.getLast?_concat] at h
      exact ⟨d, by rw [Option.some.inj h]⟩
  rw [List.dropLast_concat]
  exact trim_ne_of_visible (by decide) (List.prefix_refl d)

/-- **the label of a header is its condition if and only if the condition does not lose its last
parenthesis**, and it does if it ends in one and its literals hold more closing parentheses than
opening ones -/
theorem condition_eq_iff {k lead c r : Text} (hk : k ∈ conditionWords) (hlead : KeywordLead k lead)
    (hn : '\n' ∉ lead ++ '(' :: (c ++ ')' :: r)) (hc : c ≠ []) (hr : ')' ∉ r)
    (hclose : closingParen? (lead ++ '(' :: (c ++ ')' :: r)) lead.length
      = some (lead.length + (c.length + 1))) :
    (condition k (lead ++ '(' :: (c ++ ')' :: r)) = trim c ↔ ¬ LosesParen c) ∧
    (LosesParen c → condition k (lead ++ '(' :: (c ++ ')' :: r)) = trim c.dropLast) := by
  obtain ⟨g, rest, hsplit, hg, hlength⟩ := exists_group hclose
  have hbalanced : isBalanced 0 .outside c = true := by
    have hsame : c.length = g.length := by omega
    rwa [(List.append_inj hsplit hsame).1]
  have hcondition : condition k (lead ++ '(' :: (c ++ ')' :: r)) = trim (dropStrayParen c) := by
    obtain ⟨d, more, rfl⟩ := List.exists_cons_of_ne_nil hc
    rw [condition, group?_of_lead hk hlead hn hr]
  rw [hcondition, dropStrayParen]
  by_cases hloses : LosesParen c
  · rw [if_pos ((losesParen_iff hbalanced).1 hloses)]
    exact ⟨iff_of_false (trim_dropLast_ne hloses.last) (not_not_intro hloses), fun _ => rfl⟩
  · rw [if_neg (fun h => hloses ((losesParen_iff hbalanced).2 h))]
    exact ⟨iff_of_true rfl hloses, fun h => absurd h hloses⟩

/-- an opening and a closing parenthesis in literals make up for each other -/
theorem condition_eq_iff_characters :
    KeywordLead "if".toList "else if ".toList ∧
    '\n' ∉ "else if (g(\")\") && h('(')) x[0];".toList ∧ ')' ∉ " x[0];".toList ∧
    closingParen? "else if (g(\")\") && h('(')) x[0];".toList 8 = some 25 ∧
    ¬ LosesParen "g(\")\") && h('(')".toList ∧
    condition "if".toList "else if (g(\")\") && h('(')) x[0];".toList
      = "g(\")\") && h('(')".toList := by
  have hlead : KeywordLead "if".toList "else if ".toList :=
    @KeywordLead.afterElse _ [' '] [' '] (by decide) (by decide) (by decide)
  have hclose : closingParen? "else if (g(\")\") && h('(')) x[0];".toList 8 = some 25 := by
    decide +kernel
  have hkept : ¬ LosesParen "g(\")\") && h('(')".toList := fun h => absurd h.quoted (by decide)
  have hlabel := (condition_eq_iff (c := "g(\")\") && h('(')".toList) (r := " x[0];".toList)
    (by decide) hlead (by decide) (by decide) (by decide) hclose).1.2 hkept
  exact ⟨hlead, by decide, by decide, hclose, hkept, hlabel⟩

/-- a parenthesis between quotes takes the last one of the condition with it -/
theorem condition_quotedParen :
    KeywordLead "if".toList "if ".toList ∧ '\n' ∉ "if (f(\")\")) \x7b".toList ∧
    ')' ∉ " \x7b".toList ∧ closingParen? "if (f(\")\")) \x7b".toList 3 = some 10 ∧
    "if (f(\")\")) \x7b".toList
      = "if ".toList ++ '(' :: ("f(\")\")".toList ++ ')' :: " \x7b".toList) ∧
    condition "if".toList "if (f(\")\")) \x7b".toList = "f(\")\"".toList ∧
    trim "f(\")\")".toList = "f(\")\")".toList ∧
    condition "if".toList "if (f(\")\")) \x7b".toList ≠ trim "f(\")\")".toList := by
  refine ⟨@KeywordLead.word _ [' '] (by decide), ?_⟩
  decide +kernel

end CodeChart
