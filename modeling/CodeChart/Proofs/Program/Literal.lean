import CodeChart.Proofs.Builder.Declaration
import CodeChart.Proofs.Builder.Skeleton
import CodeChart.Proofs.Program.Action
import CodeChart.Proofs.Program.Fanout
import CodeChart.Proofs.Source.Place

/-!
# Literals in a flowchart

A builder counts the braces of a statement, those in its literals with the others, and reads
nothing else from behind a quote.

* `Kind.ofText_append_quote`   a statement is classified by what stands in front of its first quote;
* `Refilled.readsAlike`    statements with two contents of a literal, both without braces;
* `skeleton_of_content_iff`   the contents that never shape a flowchart are those without braces.
-/

namespace CodeChart

/-! ## in front of a quote -/

theorem any_congr {words : List Text} {f g : Text → Bool} (h : ∀ w ∈ words, f w = g w) :
    words.any f = words.any g := by
  induction words with
  | nil => rfl
  | cons w words ih =>
    obtain ⟨hfirst, hrest⟩ := List.forall_mem_cons.1 h
    rw [List.any_cons, List.any_cons, hfirst, ih hrest]

section
variable {q : Char} (hq : isQuote q = true)
include hq

theorem isPrefixOf_append_quote {w : Text} (hw : ∀ x ∈ w, isQuote x = false) (p z : Text) :
    w.isPrefixOf (p ++ q :: z) = w.isPrefixOf p := by
  induction w generalizing p with
  | nil => simp
  | cons x w ih =>
    obtain ⟨hx, hrest⟩ := List.forall_mem_cons.1 hw
    cases p with
    | nil =>
      have hne : (x == q) = false := beq_eq_false_iff_ne.2 (ne_of_isQuote hq hx).symm
      simp [List.isPrefixOf, hne]
    | cons y p =>
      show (x == y && w.isPrefixOf (p ++ q :: z)) = (x == y && w.isPrefixOf p)
      rw [ih hrest]

theorem declaresWith_append_quote {w : Text} (hw : ∀ x ∈ w, isQuote x = false) (p z : Text) :
    declaresWith (p ++ q :: z) w = declaresWith p w := by
  rw [declaresWith, declaresWith, isPrefixOf_append_quote hq hw]
  cases hp : w.isPrefixOf p with
  | false => rfl
  | true =>
    obtain ⟨u, rfl⟩ := List.isPrefixOf_iff_prefix.1 hp
    rw [List.append_assoc, List.drop_left, List.drop_left]
    cases u with
    | nil =>
      have hv : isBlank q = false := isBlank_of_isQuote hq
      simp [hv]
    | cons c u => rfl

theorem afterElse?_append_quote (p z : Text) :
    afterElse? (p ++ q :: z) = (afterElse? p).map (· ++ q :: z) := by
  have hword : ∀ t : Text, afterElse? t = if declaresWith t "else".toList then
      some (trimLeft (t.drop 4)) else none := fun _ => rfl
  rw [hword, hword, declaresWith_append_quote hq (noQuote_of_any (by decide))]
  split
  · rename_i h
    obtain ⟨hp, _⟩ := Bool.and_eq_true_iff.1 h
    obtain ⟨u, rfl⟩ := List.isPrefixOf_iff_prefix.1 hp
    have hlength : "else".toList.length = 4 := rfl
    rw [List.append_assoc, List.drop_left' hlength, List.drop_left' hlength,
      trimLeft_append_cons (isBlank_of_isQuote hq)]
    rfl
  · rfl

theorem startsConditional_append_quote (p z : Text) :
    startsConditional (p ++ q :: z) = startsConditional p := by
  have hif : ∀ t : Text, startsWithWord "if".toList (t ++ q :: z) = startsWithWord "if".toList t :=
    startsWithWord_append_quote hq (by decide +kernel) (z := z)
  rw [startsConditional, startsConditional, afterElse?_append_quote hq]
  cases afterElse? p with
  | none => exact hif p
  | some u => exact hif u

theorem startsWithAny_append_quote {words : List Text} (hw : ∀ w ∈ words, w.all isWord = true)
    (p z : Text) : startsWithAny words (p ++ q :: z) = startsWithAny words p :=
  any_congr fun w hmem => startsWithWord_append_quote hq (hw w hmem) p z

/-- a quote does not go on with a keyword, and no keyword holds one -/
theorem Kind.ofText_append_quote (p z : Text) : Kind.ofText (p ++ q :: z) = Kind.ofText p := by
  have hword : ∀ w ∈ keywords, startsWithWord w (p ++ q :: z) = startsWithWord w p :=
    fun w hw => startsWithWord_append_quote hq (keywords_letters w hw) p z
  rw [Kind.ofText, Kind.ofText, startsConditional_append_quote hq, startsLabel_append_quote hq,
    startsWithAny_append_quote hq (by decide +kernel),
    startsWithAny_append_quote hq (by decide +kernel), hword "else".toList (by decide),
    hword "switch".toList (by decide), hword "do".toList (by decide),
    hword "try".toList (by decide), hword "catch".toList (by decide)]

theorem declares_append_quote (p z : Text) : declares (p ++ q :: z) = declares p :=
  any_congr fun w hw => declaresWith_append_quote hq
    (noQuote_of_any ((by decide : ∀ w ∈ declarationWords, w.any isQuote = false) w hw)) p z

theorem isSkipped_append_quote (p z : Text) : isSkipped (p ++ q :: z) = isSkipped p :=
  any_congr fun w hw => isPrefixOf_append_quote hq
    (noQuote_of_any ((by decide : ∀ w ∈ skippedStarts, w.any isQuote = false) w hw)) p z

end

/-! ## contents without braces -/

def BraceFree (c : Text) : Prop := '{' ∉ c ∧ '}' ∉ c

theorem BraceFree.balance {c : Text} (h : BraceFree c) : braceBalance c = 0 := by
  rw [braceBalance, List.count_eq_zero.2 h.1, List.count_eq_zero.2 h.2]
  rfl

section
variable {q : Char} (hq : isQuote q = true)
include hq

theorem braceBalance_quoted (c : Text) : braceBalance (quoted q c) = braceBalance c := by
  have hquote : braceBalance [q] = 0 := by
    rcases isQuote_cases hq with rfl | rfl <;> rfl
  have hsplit : quoted q c = [q] ++ (c ++ [q]) := rfl
  rw [hsplit, braceBalance_append, braceBalance_append, hquote]
  omega

variable {c d t u : Text} (hc : BraceFree c) (hd : BraceFree d) (h : Refilled q c d t u)

include hc hd h

theorem Refilled.braceBalance_eq : braceBalance t = braceBalance u := by
  obtain ⟨p, z, _⟩ := h
  simp only [braceBalance_append, braceBalance_quoted hq, hc.balance, hd.balance]

theorem Refilled.hasEmptyBlock_eq : hasEmptyBlock t = hasEmptyBlock u := by
  have hbalance := h.braceBalance_eq hq hc hd
  have hbrace : t.contains '{' = u.contains '{' := by
    obtain ⟨p, z, _⟩ := h
    have hne : '{' ≠ q := (ne_of_isQuote hq (by decide)).symm
    have hquoted : ∀ {c : Text}, BraceFree c → '{' ∉ quoted q c := by
      intro c hc
      simp only [quoted, List.mem_cons, List.mem_append, List.not_mem_nil, or_false, not_or]
      exact ⟨hne, hc.1, hne⟩
    rw [Bool.eq_iff_iff, List.contains_iff_mem, List.contains_iff_mem]
    simp only [List.mem_append, hquoted hc, hquoted hd]
  rw [hasEmptyBlock, hasEmptyBlock, hbrace, hbalance]

omit hq hc hd in
theorem Refilled.getLast?_eq : t.getLast? = u.getLast? := by
  obtain ⟨p, z, _⟩ := h
  have hlast : ∀ c : Text, (p ++ (quoted q c ++ z)).getLast? = z.getLast?.or (some q) := by
    intro c
    have hend : (quoted q c).getLast? = some q := by
      rw [quoted, ← List.cons_append, List.getLast?_concat]
    rw [List.getLast?_append, List.getLast?_append, hend]
    cases z.getLast? <;> rfl
  rw [hlast, hlast]

theorem Refilled.sameKind : SameKind t u where
  kind := by
    obtain ⟨p, x, y, rfl, rfl⟩ := h.exists_common
    rw [Kind.ofText_append_quote hq, Kind.ofText_append_quote hq]
  placement k := by
    have hheader : Placement.ofHeader t = Placement.ofHeader u := by
      rw [Placement.ofHeader, Placement.ofHeader, h.hasEmptyBlock_eq hq hc hd]
    have hsibling : Placement.ofSibling t = Placement.ofSibling u := by
      rw [Placement.ofSibling, Placement.ofSibling, opensScope, opensScope,
        h.braceBalance_eq hq hc hd]
    cases k with
    | jump => rfl
    | caseLabel => exact hsibling
    | plain => exact hsibling
    | loop => rw [Kind.placement, Kind.placement, h.getLast?_eq, hheader]
    | _ => exact hheader

omit hc hd in
theorem Refilled.afterClosers : Refilled q c d (afterClosers t) (CodeChart.afterClosers u) := by
  obtain ⟨p, z, hp⟩ := h
  let closer : Char → Bool := fun c => c = '}' ∨ c = ';'
  have hquote : closer q = false := by
    rcases isQuote_cases hq with rfl | rfl <;> decide
  have hdrop : ∀ c : Text, (p ++ (quoted q c ++ z)).dropWhile closer
      = p.dropWhile closer ++ (quoted q c ++ z) := by
    intro c
    rw [List.dropWhile_append]
    split
    · rename_i he
      rw [List.isEmpty_iff.1 he, quoted_append, List.dropWhile_cons_of_neg (by rw [hquote]; decide)]
      rfl
    · rfl
  have hfront : ∀ x ∈ p.takeWhile closer, isQuote x = false := by
    intro x hx
    have hcloser : x = '}' ∨ x = ';' := by simpa [closer] using List.mem_takeWhile_imp hx
    rcases hcloser with rfl | rfl <;> decide
  have hliteral : Literal.outside.after (p.dropWhile closer) = .outside := by
    have hsplit : p = p.takeWhile closer ++ p.dropWhile closer :=
      List.takeWhile_append_dropWhile.symm
    rwa [hsplit, Literal.after_append, Literal.outside_after hfront] at hp
  have hrest : Refilled q c d ((p ++ (quoted q c ++ z)).dropWhile closer)
      ((p ++ (quoted q d ++ z)).dropWhile closer) := by
    rw [hdrop, hdrop]
    exact .intro _ z hliteral
  exact hrest.trim hq

theorem Refilled.readsAlike : ReadsAlike t u where
  toSameKind := h.sameKind hq hc hd
  declares := by
    obtain ⟨p, x, y, rfl, rfl⟩ := h.exists_common
    rw [declares_append_quote hq, declares_append_quote hq]
  skipped := by
    obtain ⟨p, x, y, rfl, rfl⟩ := h.exists_common
    rw [isSkipped_append_quote hq, isSkipped_append_quote hq]
  balance := h.braceBalance_eq hq hc hd
  brace := by
    have hne : ∀ {c d t u}, Refilled q c d t u → t ≠ ['{'] := by
      rintro c d t u h rfl
      exact ne_of_isQuote hq (by decide) (List.mem_singleton.1 h.quote_mem)
    exact iff_of_false (hne h) (hne h.symm)
  closes := by
    have hbalance := h.braceBalance_eq hq hc hd
    obtain ⟨p, x, y, rfl, rfl⟩ := h.exists_common
    have hhead : (p ++ q :: x).head? = (p ++ q :: y).head? := by
      cases p <;> rfl
    rw [closesScope, closesScope, hhead, hbalance]
  leftEmpty := by
    obtain ⟨p, x, y, ht, hu⟩ := (h.afterClosers hq).exists_common
    rw [ht, hu]
    cases p <;> rfl
  left := (h.afterClosers hq).sameKind hq hc hd

end

/-! ## flowcharts -/

theorem IsPlace.skeleton_eq {q : Char} (hq : isQuote q = true) {c d : Text} (hc : IsContent c)
    (hd : IsContent d) (hcb : BraceFree c) (hdb : BraceFree d) {before after : Text}
    (h : IsPlace before after) : (Builder.ofSource (before ++ (quoted q c ++ after))).skeleton
      = (Builder.ofSource (before ++ (quoted q d ++ after))).skeleton := by
  refine Builder.skeleton_congr ((h.statements_refilled hq hc hd).imp fun t u htu => ?_)
  cases htu with
  | refl => exact .refl t
  | single h => exact h.readsAlike hq hcb hdb

/-! ## braces in a literal -/

section
variable {q : Char} (hq : isQuote q = true) {c : Text} (hc : IsContent c)
include hq hc

theorem isKept_quoted : IsKept (quoted q c) := fun _ after => Reader.read_quoted hq hc rfl after

/-- a statement in the body of a declaration, where braces are counted -/
theorem isWholeLine_assignment : IsWholeLine ("x = ".toList ++ (quoted q c ++ [';'])) where
  oneLine := by
    have hn := hc.newline_not_mem_quoted hq
    simp [hn]
  noBlockComment := by
    rw [hasPair_quoted hq (by decide) (by decide) hc.noOpener]
    decide
  noLineComment := by
    have hcontent : ¬ ['/', '/'] <:+: c := hc.noLineComment
    rw [hasPair_quoted hq (by decide) (by decide) hcontent]
    decide
  trimmed := trim_of_visible_ends (c := 'x') (by decide) (by decide) (" = ".toList ++ quoted q c)
  single := by
    have hkept : IsKept ("x = ".toList ++ quoted q c) :=
      (isKept_of_inert (List.all_eq_true.1 (by decide))).append (isKept_quoted hq hc)
    have htrim : trim ("x = ".toList ++ quoted q c ++ [';'])
        = "x = ".toList ++ quoted q c ++ [';'] :=
      trim_of_visible_ends (c := 'x') (by decide) (by decide) (" = ".toList ++ quoted q c)
    rw [← List.append_assoc, splitLine, segments_semicolon hkept htrim, List.flatMap_singleton]
    exact peelHeaders_of_none rfl rfl

theorem ignored_of_assignment :
    (Builder.ofSource ("struct S \x7b\nx = ".toList ++ (quoted q c ++ [';']))).skeleton.ignored
      = (1 + braceBalance c).toNat := by
  let t := "x = ".toList ++ (quoted q c ++ [';'])
  have hlines : ∀ l ∈ ["struct S \x7b".toList, t], IsWholeLine l := by
    intro l hl
    rcases List.mem_cons.1 hl with rfl | hl
    · exact ⟨by decide, by decide, by decide, by decide, by decide +kernel⟩
    · rw [List.mem_singleton.1 hl]
      exact isWholeLine_assignment hq hc
  have hheader : Builder.fresh.feed ⟨"struct S \x7b".toList, 1⟩
      = { Builder.fresh with ignored := 1 } := by decide +kernel
  have hcounted : countedBraces t = braceBalance c := by
    have hempty : braceBalance "x = ".toList = 0 ∧ braceBalance [';'] = 0 := ⟨rfl, rfl⟩
    show braceBalance t = braceBalance c
    rw [braceBalance_append, braceBalance_append, braceBalance_quoted hq, hempty.1, hempty.2]
    omega
  have hsrc : "struct S \x7b\nx = ".toList ++ (quoted q c ++ [';'])
      = List.intercalate ['\n'] ["struct S \x7b".toList, t] := by
    rw [List.intercalate_cons_cons, List.intercalate_singleton]
    rfl
  rw [hsrc, Builder.ofSource, Builder.run, Builder.skeleton_finish, statements_of_lines hlines,
    numbered_cons, numbered_cons, Builder.feedAll_cons, hheader, Builder.feedAll_cons,
    Builder.feed_ignoring (by decide), hcounted]
  rfl

/-- a literal as the condition of a header -/
theorem exists_group_quoted (hb : braceBalance c = 0) : ∃ g : Group, g.text = quoted q c := by
  have hpair : ∀ x, isQuote x = false → ¬ ['/', x] <:+: c → hasPair '/' x (quoted q c) = false := by
    intro x hx hno
    have hquoted := hasPair_quoted hq (by decide) hx hno [] []
    rwa [List.nil_append, List.append_nil] at hquoted
  have hbalanced := isBalanced_quoted hq hc 0 []
  rw [List.append_nil] at hbalanced
  exact ⟨⟨quoted q c, hbalanced, by rw [braceBalance_quoted hq, hb], hc.newline_not_mem_quoted hq,
    hpair '*' (by decide) hc.noOpener, hpair '/' (by decide) hc.noLineComment⟩, rfl⟩

theorem scopeKinds_of_condition (hb : braceBalance c = 0) :
    (Builder.ofSource ("if (".toList ++ (quoted q c ++ [')']))).skeleton.scopeKinds
      = if '{' ∈ c then [none] else [none, some .conditional] := by
  obtain ⟨g, hg⟩ := exists_group_quoted hq hc hb
  let h : Guard := ⟨"if".toList, by decide, g⟩
  have hline : IsLine (h.before []) .conditional (if '{' ∈ g.text then .chain else .nest) :=
    h.isLine_bare
  have hbrace : '{' ∈ g.text ↔ '{' ∈ c := by
    have hne : '{' ≠ q := (ne_of_isQuote hq (by decide)).symm
    simp [hg, quoted, hne]
  have hsrc : "if (".toList ++ (quoted q c ++ [')']) = List.intercalate ['\n'] [h.before []] := by
    rw [List.intercalate_singleton, Guard.before, grouped, hg]
    rfl
  have hlines : ∀ l ∈ [h.before []], IsWholeLine l := fun l hl => by
    rw [List.mem_singleton.1 hl]
    exact hline.whole
  rw [hsrc, Builder.ofSource, Builder.run, Builder.skeleton_finish, statements_of_lines hlines,
    numbered_cons, numbered_nil, Builder.feedAll_cons, Builder.feedAll_nil,
    Builder.feed_line (s := ⟨h.before [], 1⟩) rfl hline]
  simp only [hbrace]
  split <;> rfl

end

/-- **a literal shapes no flowchart if and only if its content has no braces**: whatever stands
around it, it could as well be empty -/
theorem skeleton_of_content_iff {q : Char} (hq : isQuote q = true) {c : Text} (hc : IsContent c) :
    (∀ before after, IsPlace before after →
      (Builder.ofSource (before ++ (quoted q c ++ after))).skeleton
        = (Builder.ofSource (before ++ (quoted q [] ++ after))).skeleton) ↔ '{' ∉ c ∧ '}' ∉ c := by
  constructor
  · intro h
    have hbalance : braceBalance c = 0 := by
      have hplace : IsPlace "struct S \x7b\nx = ".toList [';'] :=
        ⟨.inr (by decide), by decide +kernel, by decide +kernel⟩
      have hignored := congrArg Skeleton.ignored (h _ _ hplace)
      rw [ignored_of_assignment hq hc, ignored_of_assignment hq isContent_nil] at hignored
      have hnil : braceBalance [] = 0 := rfl
      omega
    have hopen : '{' ∉ c := by
      intro hm
      have hplace : IsPlace "if (".toList [')'] :=
        ⟨.inr (by decide), by decide +kernel, by decide +kernel⟩
      have hkinds := congrArg Skeleton.scopeKinds (h _ _ hplace)
      rw [scopeKinds_of_condition hq hc hbalance, scopeKinds_of_condition hq isContent_nil rfl,
        if_pos hm, if_neg List.not_mem_nil] at hkinds
      cases hkinds
    have hcount := List.count_eq_zero.2 hopen
    refine ⟨hopen, List.count_eq_zero.1 ?_⟩
    rw [braceBalance, hcount] at hbalance
    omega
  · rintro hfree before after hplace
    exact hplace.skeleton_eq hq hc isContent_nil hfree ⟨List.not_mem_nil, List.not_mem_nil⟩

/-- keywords, a parenthesis and a semicolon in a literal, behind a comment -/
theorem skeleton_of_keywords :
    let before := "/* a */ void f() \x7b\nputs(".toList
    let after := ");\n\x7d".toList
    let c := "if (a; case 1: ) else".toList
    IsContent c ∧ IsPlace before after ∧
    (Builder.ofSource (before ++ (quoted '"' c ++ after))).skeleton
      = (Builder.ofSource (before ++ (quoted '"' [] ++ after))).skeleton := by
  have hc : IsContent "if (a; case 1: ) else".toList :=
    ⟨noQuote_of_any (by decide), by decide, by decide, by decide, by decide, by decide⟩
  have hclosed : ClosesComments "/* a */ void f() \x7b\nputs(".toList :=
    @ClosesComments.comment [] "/* a */".toList " void f() \x7b\nputs(".toList
      (isFirstComment_iff.2 ⟨by decide, " a ".toList, by decide, by decide⟩) (.code (by decide))
  have hplace : IsPlace "/* a */ void f() \x7b\nputs(".toList ");\n\x7d".toList :=
    ⟨.inl hclosed, by decide +kernel, by decide +kernel⟩
  exact ⟨hc, hplace, (skeleton_of_content_iff (by decide) hc).2 ⟨by decide, by decide⟩ _ _ hplace⟩

/-- a closing brace in a literal ends the function around it -/
theorem brace_in_literal :
    let before := "void f() \x7b\nputs(".toList
    let after := ");\n\x7d\ng();".toList
    IsContent "\x7d".toList ∧ IsPlace before after ∧
    (Builder.ofSource (before ++ (quoted '"' "\x7d".toList ++ after))).skeleton.edges
      = [(.start, .node 0, .solid), (.start, .node 1, .solid), (.node 1, .node 2, .solid)] ∧
    (Builder.ofSource (before ++ (quoted '"' [] ++ after))).skeleton.edges
      = [(.start, .node 0, .solid), (.node 0, .node 1, .solid), (.start, .node 2, .solid)] :=
  ⟨⟨noQuote_of_any (by decide), by decide, by decide, by decide, by decide, by decide⟩,
    ⟨.inr (by decide), by decide +kernel, by decide +kernel⟩, by decide +kernel, by decide +kernel⟩

end CodeChart
