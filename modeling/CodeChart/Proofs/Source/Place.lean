import CodeChart.Proofs.Source.Content
import CodeChart.Proofs.Source.LineComment

/-!
# Literals in a source text

* `IsPlace`            a place in a source text where a literal may open: no comment and no other
                       literal is open there;
* `uncommented_place`  what is left of a text with a literal at such a place when its block
                       comments are deleted;
* `IsPlace.statements_refilled`   the content of the literal makes no difference but in the one
                       statement that it stands in.
-/

namespace CodeChart

/-! ## rows -/

/-- two texts in a row share the row that they meet in -/
theorem splitOn_append {sep : Char} {a b x y : Text} {before after : List Text}
    (ha : splitOn sep a = before ++ [x]) (hb : splitOn sep b = y :: after) :
    splitOn sep (a ++ b) = before ++ (x ++ y) :: after := by
  induction a generalizing x before with
  | nil =>
    obtain ⟨rfl, rfl⟩ := List.append_singleton_inj.1 (show [] ++ [[]] = before ++ [x] from ha)
    exact hb
  | cons c a ih =>
    obtain ⟨rows, r, hrows⟩ :=
      (List.eq_nil_or_concat' (splitOn sep a)).resolve_left (List.splitOn_ne_nil sep a)
    have hboth := ih hrows
    by_cases hc : c = sep
    · rw [hc, splitOn_cons_self, hrows, ← List.cons_append] at ha
      obtain ⟨rfl, rfl⟩ := List.append_singleton_inj.1 ha
      rw [List.cons_append, hc, splitOn_cons_self, hboth]
      rfl
    · cases rows with
      | nil =>
        rw [splitOn_cons_of_ne hc hrows] at ha
        obtain ⟨rfl, rfl⟩ := List.append_singleton_inj.1
          (show [] ++ [c :: r] = before ++ [x] from ha)
        exact splitOn_cons_of_ne hc hboth
      | cons first rows =>
        rw [splitOn_cons_of_ne hc hrows] at ha
        obtain ⟨rfl, rfl⟩ := List.append_singleton_inj.1
          (show ((c :: first) :: rows) ++ [r] = before ++ [x] from ha)
        exact splitOn_cons_of_ne hc hboth

/-- the text behind the last line end -/
def lastRow (t : Text) : Text := (splitOn '\n' t).getLast (List.splitOn_ne_nil '\n' t)

theorem exists_lastRow (t : Text) : ∃ before, splitOn '\n' t = before ++ [lastRow t] :=
  ⟨_, (List.dropLast_append_getLast (List.splitOn_ne_nil '\n' t)).symm⟩

/-! ## places -/

/-- between these texts a literal may open -/
structure IsPlace (before after : Text) : Prop where
  /-- no block comment is open: none opens before that is not closed there, or nothing behind
  closes it -/
  noComment : ClosesComments before ∨ ¬ commentCloser <:+: after
  noLineComment : ¬ "//".toList <:+: lastRow (uncommented before)
  outside : Literal.outside.after (lastRow (uncommented before)) = .outside

theorem cutLineComment_append_of_no_mark {a : Text} (h : hasPair '/' '/' a = false)
    (hlast : a.getLast? ≠ some '/') (b : Text) :
    cutLineComment (a ++ b) = a ++ cutLineComment b := by
  induction a with
  | nil => rfl
  | cons c a ih =>
    rw [hasPair_cons, Bool.or_eq_false_iff] at h
    have hno : ¬ (c = '/' ∧ (a ++ b).head? = some '/') := by
      rintro ⟨rfl, hslash⟩
      cases a with
      | nil => exact hlast rfl
      | cons d a =>
        rw [Option.some.inj hslash] at h
        cases h.1
    have hrest : a.getLast? ≠ some '/' := by
      cases a with
      | nil => decide
      | cons d a => rwa [List.getLast?_cons_cons] at hlast
    rw [List.cons_append, cutLineComment, if_neg hno, ih h.2 hrest]
    rfl

section
variable {q : Char} {c : Text} (hq : isQuote q = true)
include hq

/-- a pair of other characters does not reach across a quote -/
theorem hasPair_quoted {a b : Char} (ha : isQuote a = false) (hb : isQuote b = false)
    (h : ¬ [a, b] <:+: c) (s z : Text) :
    hasPair a b (s ++ (quoted q c ++ z)) = (hasPair a b s || hasPair a b z) := by
  have hqa := ne_of_isQuote hq ha
  have hqb := ne_of_isQuote hq hb
  have hcontent : hasPair a b c = false := Bool.eq_false_iff.2 fun hp => h (hasPair_iff.1 hp)
  rw [quoted_append, hasPair_append_cons hqa hqb, hasPair_append_cons hqa hqb, hcontent,
    Bool.false_or]

variable (hc : IsContent c)
include hc

theorem IsContent.newline_not_mem_quoted : '\n' ∉ quoted q c := by
  have hn : '\n' ≠ q := (ne_of_isQuote hq (by decide)).symm
  simp only [quoted, List.mem_cons, List.mem_append, List.not_mem_nil, or_false, not_or]
  exact ⟨hn, hc.oneLine, hn⟩

theorem dropComments_quoted (n m : Nat) (z : Text) :
    dropComments (locate n (quoted q c) ++ locate m z)
      = locate n (quoted q c) ++ dropComments (locate m z) := by
  refine outsideComments_append_of_no_opener fun hin => ?_
  have hfirst : hasPair '/' '*' (z.take 1) = false := by
    cases z with
    | nil => rfl
    | cons x z => simp [hasPair_cons, hasPair_nil]
  have hpair := hasPair_quoted hq (by decide) (by decide) hc.noOpener [] (z.take 1)
  rw [map_char_locate, map_char_locate, commentOpener, ← hasPair_iff] at hin
  rw [List.nil_append, hin, hfirst, hasPair_nil] at hpair
  cases hpair

/-- the literal is kept, and what is left behind it does not depend on its content -/
theorem uncommented_place {before after : Text} (h : IsPlace before after) :
    uncommented (before ++ (quoted q c ++ after)) = uncommented before ++ (quoted q c ++
      (dropComments (locate (1 + newlines before) after)).map Located.char) := by
  have hcount : newlines (quoted q c) = 0 :=
    List.count_eq_zero.2 (hc.newline_not_mem_quoted hq)
  let n := 1 + newlines before
  have hlocate : locate 1 (before ++ (quoted q c ++ after))
      = locate 1 before ++ (locate n (quoted q c) ++ locate n after) := by
    rw [locate_append, locate_append, hcount]
    rfl
  have hhead : ∀ x, isQuote x = false →
      ((locate n (quoted q c) ++ locate n after).map Located.char).head? ≠ some x := by
    intro x hx hsome
    rw [List.map_append, map_char_locate] at hsome
    exact ne_of_isQuote hq hx (Option.some.inj hsome)
  have hall : dropComments (locate 1 (before ++ (quoted q c ++ after)))
      = dropComments (locate 1 before) ++ (locate n (quoted q c) ++
        dropComments (locate n after)) := by
    rw [hlocate]
    rcases h.noComment with hclosed | hopen
    · rw [← dropComments_quoted hq hc]
      refine dropComments_append ?_ fun _ => hhead '*' (by decide)
      rwa [map_char_locate]
    · have hcloser : ¬ commentCloser <:+: quoted q c ++ after := by
        rw [commentCloser, ← hasPair_iff] at hopen ⊢
        have hpair := hasPair_quoted hq (by decide) (by decide) hc.noCloser [] after
        rw [List.nil_append, hasPair_nil, Bool.false_or] at hpair
        rwa [hpair]
      rw [dropComments_of_no_closer (t := locate n after) (by rwa [map_char_locate])]
      refine dropComments_append_of_no_closer ?_ (hhead '/' (by decide))
      rwa [List.map_append, map_char_locate, map_char_locate]
  rw [uncommented, hall, List.map_append, List.map_append, map_char_locate]
  rfl

theorem cutLineComment_quoted {x : Text} (h : ¬ "//".toList <:+: x) (y : Text) :
    cutLineComment (x ++ (quoted q c ++ y)) = x ++ (quoted q c ++ cutLineComment y) := by
  have hmark : hasPair '/' '/' x = false := Bool.eq_false_iff.2 fun hp => h (hasPair_iff.1 hp)
  have hcontent : ¬ ['/', '/'] <:+: c := hc.noLineComment
  have hpair := hasPair_quoted hq (by decide) (by decide) hcontent x []
  rw [hmark, hasPair_nil, Bool.false_or, List.append_nil] at hpair
  rw [← List.append_assoc, ← List.append_assoc]
  refine cutLineComment_append_of_no_mark hpair ?_ y
  rw [quoted, ← List.cons_append, ← List.append_assoc, List.getLast?_concat]
  exact fun hslash => ne_of_isQuote hq (by decide) (Option.some.inj hslash)

end

section
variable {q : Char} {c d : Text} (hq : isQuote q = true) (hc : IsContent c) (hd : IsContent d)
include hq hc hd

/-- **what a literal holds makes no difference** but in the statement that it stands in -/
theorem IsPlace.statements_refilled {before after : Text} (h : IsPlace before after) :
    List.Forall₂ (Relation.ReflGen (Refilled q c d))
      ((statements (before ++ (quoted q c ++ after))).map Statement.text)
      ((statements (before ++ (quoted q d ++ after))).map Statement.text) := by
  obtain ⟨rows, hrows⟩ := exists_lastRow (uncommented before)
  let rest := (dropComments (locate (1 + newlines before) after)).map Located.char
  obtain ⟨y, more, hy⟩ := List.exists_cons_of_ne_nil (List.splitOn_ne_nil '\n' rest)
  let x := lastRow (uncommented before)
  have hsplit : ∀ {c}, IsContent c → splitOn '\n' (uncommented (before ++ (quoted q c ++ after)))
      = rows ++ (x ++ (quoted q c ++ y)) :: more := by
    intro c hc
    have hliteral : splitOn '\n' (quoted q c ++ rest) = (quoted q c ++ y) :: more :=
      @splitOn_append _ _ _ _ _ [] _ (List.splitOn_eq_singleton (hc.newline_not_mem_quoted hq)) hy
    rw [uncommented_place hq hc h]
    exact splitOn_append hrows hliteral
  have hline : '\n' ∉ x ++ (quoted q c ++ cutLineComment y) := by
    have hx : '\n' ∉ x :=
      not_mem_of_mem_splitOn (hrows ▸ List.mem_append_right rows List.mem_cons_self)
    have hyn : '\n' ∉ y := not_mem_of_mem_splitOn (by rw [hy]; simp)
    have hcut := cutLineComment_prefix y
    rw [List.mem_append, List.mem_append, not_or, not_or]
    exact ⟨hx, hc.newline_not_mem_quoted hq, fun hm => hyn (hcut.subset hm)⟩
  have hrow : Refilled q c d (x ++ (quoted q c ++ cutLineComment y))
      (x ++ (quoted q d ++ cutLineComment y)) := .intro x _ h.outside
  rw [map_text_statements, map_text_statements, hsplit hc, hsplit hd, List.flatMap_append,
    List.flatMap_append, List.flatMap_cons, List.flatMap_cons,
    cutLineComment_quoted hq hc h.noLineComment, cutLineComment_quoted hq hd h.noLineComment]
  exact List.rel_append (List.forall₂_refl _)
    (List.rel_append (hrow.splitLine hq hc hd hline) (List.forall₂_refl _))

end

end CodeChart
