import CodeChart.Proofs.Program.Piece

/-!
# Headers in a row

Headers without braces can stand on one line, each the body of the one before it, with a statement
behind the last.  They are taken apart again, however many they are and whatever their conditions
hold: braces, semicolons, further parentheses, and literals with parentheses in them.

* `headerLeads`             what a header begins with;
* `IsConditional`           such a beginning and a condition, whose parenthesis is closed by the
                            last character; `IsConditional.exists_group` says that the condition is
                            balanced;
* `CanFollow`               what a header may stand in front of; `IsConditional.splitLine_append`
                            cuts a header off in front of it;
* `inRow`                   headers and a body on one line;
* `splitLine_inRow`         its statements are the headers and the body.
-/

namespace CodeChart

/-! ## one header -/

/-- the words of conditions with a blank behind them, and one of them behind an `else` -/
def headerLeads : List Text := "else if ".toList :: conditionWords.map (· ++ [' '])

def IsConditional (header : Text) : Prop :=
  ∃ lead ∈ headerLeads, ∃ condition, header = lead ++ '(' :: (condition ++ [')']) ∧
    closingParen? header lead.length = some (header.length - 1)

theorem elseBody?_elseIf (r : Text) : elseBody? ("else if ".toList ++ r) = none := by
  have hafter : afterElse? ("else if ".toList ++ r) = some ("if ".toList ++ r) := rfl
  have hblank : continuesWord (' ' :: r) = false := @isWord_of_isBlank ' ' (by decide)
  have hif : startsWithWord "if".toList ("if ".toList ++ r) = true :=
    Option.isSome_iff_exists.2 ⟨' ' :: r, afterWord?_eq_some_iff.2 ⟨rfl, hblank⟩⟩
  rw [elseBody?, hafter]
  simp only [hif, Bool.or_true, if_true]

theorem conditionLead_of_mem {lead : Text} (h : lead ∈ headerLeads) :
    ConditionLead lead ∧ ∀ r, elseBody? (lead ++ r) = none := by
  rcases List.mem_cons.1 h with rfl | h
  · exact ⟨@ConditionLead.afterElse [' '] "if".toList [' '] rfl (by simp) (by decide) rfl,
      elseBody?_elseIf⟩
  · obtain ⟨word, hw, rfl⟩ := List.mem_map.1 h
    exact ⟨.word hw rfl, elseBody?_of_word hw⟩

theorem IsConditional.exists_group {header : Text} (h : IsConditional header) :
    ∃ lead g, lead ∈ headerLeads ∧ isBalanced 0 .outside g = true ∧
      header = lead ++ '(' :: (g ++ [')']) := by
  obtain ⟨lead, hlead, condition, rfl, hclose⟩ := h
  obtain ⟨g, rest, hsplit, hg, hlength⟩ := CodeChart.exists_group hclose
  -- nothing is left behind the parenthesis that is found
  have hcount := congrArg List.length hsplit
  simp only [List.length_append, List.length_cons, List.length_nil] at hlength hcount
  have hrest : rest = [] := List.eq_nil_of_length_eq_zero (by omega)
  rw [hrest] at hsplit
  exact ⟨lead, g, hlead, hg, by rw [hsplit]⟩

/-! ## in front of a body -/

/-- a text that starts with neither a brace, a semicolon nor a label -/
structure CanFollow (rest : Text) : Prop where
  firm : ∀ c, nextVisible rest = some c → c ≠ '{' ∧ c ≠ ';'
  noLabel : startsLabel (trimLeft rest) = false

theorem CanFollow.blank_append {gap rest : Text} (h : CanFollow rest)
    (hgap : allBlank gap = true) : CanFollow (gap ++ rest) where
  firm := by
    rw [nextVisible_blank_append hgap]
    exact h.firm
  noLabel := by
    rw [trimLeft_blank_append hgap]
    exact h.noLabel

theorem CanFollow.of_trimmed {body : Text} (ht : IsTrimmed body)
    (hfirst : body.head? ≠ some '{' ∧ body.head? ≠ some ';') (hlabel : startsLabel body = false) :
    CanFollow body where
  firm c hc := by
    rw [← head?_trim, ht.trimmed] at hc
    rw [hc] at hfirst
    exact ⟨fun h => hfirst.1 (congrArg some h), fun h => hfirst.2 (congrArg some h)⟩
  noLabel := by rwa [ht.trimLeft_eq]

/-- a header can be the body of another one -/
theorem IsConditional.canFollow_append {header : Text} (h : IsConditional header) (rest : Text) :
    CanFollow (header ++ rest) := by
  obtain ⟨lead, g, hlead, _, rfl⟩ := h.exists_group
  have hl := (conditionLead_of_mem hlead).1
  have hlabel := hl.startsLabel_eq ('(' :: (g ++ [')']) ++ rest)
  have hinert := hl.isInert
  obtain ⟨c, r, rfl, hc⟩ := hl.visible
  have hfirst : isInert c = true := hinert c List.mem_cons_self
  refine ⟨fun d hd => ?_, ?_⟩
  · rw [List.append_assoc, List.cons_append, nextVisible_cons_of_visible hc] at hd
    obtain rfl := Option.some.inj hd
    constructor
    · rintro rfl
      exact absurd hfirst (by decide)
    · rintro rfl
      exact absurd hfirst (by decide)
  · rwa [List.append_assoc, List.cons_append, trimLeft_cons_of_visible hc, ← List.cons_append]

theorem IsConditional.splitLine_append {header rest : Text} (h : IsConditional header)
    (hrest : CanFollow rest) : splitLine (header ++ rest) = header :: splitLine rest := by
  obtain ⟨lead, g, hlead, hg, rfl⟩ := h.exists_group
  obtain ⟨hl, helse⟩ := conditionLead_of_mem hlead
  exact hl.splitLine_cons hg helse hrest.firm hrest.noLabel

/-! ## headers in a row -/

def inRow (headers : List Text) (body : Text) : Text :=
  List.intercalate [' '] (headers ++ [body])

theorem inRow_nil (body : Text) : inRow [] body = body := List.intercalate_singleton

theorem inRow_cons (header : Text) (headers : List Text) (body : Text) :
    inRow (header :: headers) body = header ++ ([' '] ++ inRow headers body) := by
  obtain ⟨p, ps, hps⟩ := List.exists_cons_of_ne_nil
    (List.append_ne_nil_of_right_ne_nil headers (List.cons_ne_nil body []))
  rw [inRow, inRow, List.cons_append, hps, List.intercalate_cons_cons, List.append_assoc]

theorem canFollow_inRow {headers : List Text} {body : Text}
    (hheaders : ∀ h ∈ headers, IsConditional h) (hbody : CanFollow body) :
    CanFollow (inRow headers body) := by
  cases headers with
  | nil => rwa [inRow_nil]
  | cons header headers =>
    rw [inRow_cons]
    exact (hheaders header List.mem_cons_self).canFollow_append _

/-- **headers in a row are peeled off one by one**, in front of a body that is one statement by
itself -/
theorem splitLine_inRow {headers : List Text} {body : Text}
    (hheaders : ∀ h ∈ headers, IsConditional h) (hbody : splitLine body = [body])
    (hfirst : body.head? ≠ some '{' ∧ body.head? ≠ some ';') (hlabel : startsLabel body = false) :
    splitLine (inRow headers body) = headers ++ [body] := by
  have htrimmed : IsTrimmed body :=
    (splitLine_covers body).isTrimmed (hbody ▸ List.mem_singleton_self body)
  have hfollow := CanFollow.of_trimmed htrimmed hfirst hlabel
  induction headers with
  | nil => rw [inRow_nil, hbody, List.nil_append]
  | cons header headers ih =>
    obtain ⟨hheader, hrest⟩ := List.forall_mem_cons.1 hheaders
    have hnext : CanFollow ([' '] ++ inRow headers body) :=
      (canFollow_inRow hrest hfollow).blank_append rfl
    rw [inRow_cons, hheader.splitLine_append hnext, splitLine, segments_blank_append rfl,
      ← splitLine, ih hrest, List.cons_append]

/-- parentheses in literals, semicolons and a block in a condition, and a list that is returned -/
theorem splitLine_inRow_enclosed :
    let headers := ["else if (a == ')')".toList, "for (int i = 0; i < n; i++)".toList,
      "while (f(\"(\\\"\", [] \x7b x; \x7d))".toList]
    let body := "return \x7b1, 2\x7d;".toList
    (∀ h ∈ headers, IsConditional h) ∧ splitLine body = [body] ∧
    (body.head? ≠ some '{' ∧ body.head? ≠ some ';') ∧ startsLabel body = false ∧
    splitLine (inRow headers body) = headers ++ [body] := by
  intro headers body
  have hheaders : ∀ h ∈ headers, IsConditional h := by
    intro h hh
    simp only [headers, List.mem_cons, List.not_mem_nil, or_false] at hh
    rcases hh with rfl | rfl | rfl
    · exact ⟨"else if ".toList, by decide, "a == ')'".toList, by decide, by decide +kernel⟩
    · exact ⟨"for ".toList, by decide, "int i = 0; i < n; i++".toList, by decide,
        by decide +kernel⟩
    · exact ⟨"while ".toList, by decide, "f(\"(\\\"\", [] \x7b x; \x7d)".toList, by decide,
        by decide +kernel⟩
  have hbody : splitLine body = [body] := by decide +kernel
  have hfirst : body.head? ≠ some '{' ∧ body.head? ≠ some ';' := by decide
  have hlabel : startsLabel body = false := by decide +kernel
  exact ⟨hheaders, hbody, hfirst, hlabel, splitLine_inRow hheaders hbody hfirst hlabel⟩

end CodeChart
