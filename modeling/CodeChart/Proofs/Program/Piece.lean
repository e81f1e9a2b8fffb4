import CodeChart.Proofs.Program.Line
import CodeChart.Proofs.Source.Atomic

/-!
# Statements in any layout

Blanks and line ends around the statements of a program do not matter, and a body may stand
behind its header or below it.

* `IsPiece`           a text that is cut out as one statement wherever it stands in a line;
* `IsLaidOut`         statements in order with blanks and line ends around them;
* `texts_of_layout`   the statements that are read from such a text;
* `isPiece_semicolon`, `isPiece_brace`, `isPiece_pair`, `isPiece_header`, `isPiece_close`   the
                      pieces that programs are written with: calls, headers with a block that is
                      left open, with an empty one and with none, and the closing brace.
-/

namespace CodeChart

/-! ## pieces -/

/-- what may follow a piece on its line: no brace, semicolon or colon that would be read with it,
and no label -/
structure IsFollowed (p rest : Text) : Prop where
  firm : ∀ c, nextVisible rest = some c → c ≠ '{' ∧ c ≠ ';' ∧ c ≠ ':'
  opened : p.getLast? = some '{' → nextVisible rest ≠ some '}'
  noLabel : startsLabel (trimLeft rest) = false

structure IsPiece (p : Text) : Prop extends IsWholeLine p where
  first : ∃ c r, p = c :: r ∧ isBlank c = false ∧ c ≠ '{' ∧ c ≠ ';' ∧ c ≠ ':'
  last : p.getLast? ≠ some '/'
  noLabel : ∀ u, startsLabel (p ++ u) = false
  split : ∀ rest, IsFollowed p rest → splitLine (p ++ rest) = p :: splitLine rest

/-! ## layouts -/

def firstRow (t : Text) : Text := t.takeWhile fun c => decide (c ≠ '\n')

theorem firstRow_newline (t : Text) : firstRow ('\n' :: t) = [] := rfl

theorem firstRow_cons {c : Char} (h : c ≠ '\n') (t : Text) :
    firstRow (c :: t) = c :: firstRow t := by
  simp [firstRow, h]

theorem firstRow_append {p : Text} (h : '\n' ∉ p) (t : Text) :
    firstRow (p ++ t) = p ++ firstRow t := by
  induction p with
  | nil => rfl
  | cons c p ih =>
    rw [List.mem_cons, not_or] at h
    rw [List.cons_append, firstRow_cons (Ne.symm h.1), ih h.2, List.cons_append]

/-- the row ends among the blanks, or goes on behind them -/
theorem firstRow_blank_append {gap : Text} (hg : allBlank gap = true) (t : Text) :
    allBlank (firstRow (gap ++ t)) = true ∨ firstRow (gap ++ t) = gap ++ firstRow t := by
  induction gap with
  | nil => exact .inr rfl
  | cons c gap ih =>
    rw [allBlank, List.all_cons, Bool.and_eq_true] at hg
    rw [List.cons_append]
    by_cases hc : c = '\n'
    · rw [hc, firstRow_newline]
      exact .inl rfl
    · rw [firstRow_cons hc]
      rcases ih hg.2 with h | h
      · left
        rw [allBlank, List.all_cons, hg.1]
        exact h
      · right
        rw [h, List.cons_append]

theorem exists_rows_splitOn (t : Text) : ∃ more, splitOn '\n' t = firstRow t :: more := by
  induction t with
  | nil => exact ⟨[], rfl⟩
  | cons c t ih =>
    obtain ⟨more, hs⟩ := ih
    by_cases hc : c = '\n'
    · exact ⟨splitOn '\n' t, by rw [hc, splitOn_cons_self, firstRow_newline]⟩
    · exact ⟨more, by rw [splitOn_cons_of_ne hc hs, firstRow_cons hc]⟩

/-- the statements of a text without comments, row by row -/
def rowStatements (t : Text) : List Text := (splitOn '\n' t).flatMap splitLine

theorem rowStatements_blank_append {gap : Text} (hg : allBlank gap = true) (t : Text) :
    rowStatements (gap ++ t) = rowStatements t := by
  induction gap with
  | nil => rfl
  | cons c gap ih =>
    rw [allBlank, List.all_cons, Bool.and_eq_true] at hg
    rw [← ih hg.2, List.cons_append]
    by_cases hc : c = '\n'
    · rw [hc, rowStatements, splitOn_cons_self]
      rfl
    · obtain ⟨more, hs⟩ := exists_rows_splitOn (gap ++ t)
      have hblank : splitLine (c :: firstRow (gap ++ t)) = splitLine (firstRow (gap ++ t)) := by
        have hone : allBlank [c] = true := by simp [allBlank, hg.1]
        rw [splitLine, splitLine, ← segments_blank_append hone (firstRow _)]
        rfl
      rw [rowStatements, rowStatements, splitOn_cons_of_ne hc hs, hs, List.flatMap_cons, hblank,
        List.flatMap_cons]

theorem rowStatements_piece {p : Text} (hp : IsPiece p) {rest : Text}
    (h : IsFollowed p (firstRow rest)) : rowStatements (p ++ rest) = p :: rowStatements rest := by
  obtain ⟨more, hs⟩ := exists_rows_splitOn rest
  have hrow : ∀ q : Text, '\n' ∉ q → splitOn '\n' (q ++ rest) = (q ++ firstRow rest) :: more := by
    intro q hq
    induction q with
    | nil => exact hs
    | cons c q ih =>
      rw [List.mem_cons, not_or] at hq
      exact splitOn_cons_of_ne (Ne.symm hq.1) (ih hq.2)
  rw [rowStatements, rowStatements, hrow p hp.oneLine, hs, List.flatMap_cons, hp.split _ h,
    List.flatMap_cons, List.cons_append]

/-- the statements in order, blanks and line ends around them; only an opening brace is not
followed by a closing one on the same line, as the two are read as an empty block then -/
inductive IsLaidOut : List Text → Text → Prop
  | nil {gap : Text} (hg : allBlank gap = true) : IsLaidOut [] gap
  | cons {gap piece rest : Text} {more : List Text} (hg : allBlank gap = true)
      (hopen : piece.getLast? = some '{' → nextVisible (firstRow rest) ≠ some '}')
      (h : IsLaidOut more rest) : IsLaidOut (piece :: more) (gap ++ (piece ++ rest))

theorem IsLaidOut.blank_append {pieces : List Text} {src gap : Text} (h : IsLaidOut pieces src)
    (hg : allBlank gap = true) : IsLaidOut pieces (gap ++ src) := by
  cases h with
  | nil hg' => exact .nil (allBlank_append hg hg')
  | cons hg' hopen h =>
    rw [← List.append_assoc]
    exact .cons (allBlank_append hg hg') hopen h

/-- one statement on each line -/
theorem isLaidOut_lines (pieces : List Text) :
    IsLaidOut pieces (List.intercalate ['\n'] pieces) := by
  induction pieces with
  | nil => exact .nil rfl
  | cons p ps ih =>
    cases ps with
    | nil =>
      rw [List.intercalate_singleton]
      have h := @IsLaidOut.cons [] p [] [] rfl (fun _ h => by cases h) (.nil rfl)
      rwa [List.nil_append, List.append_nil] at h
    | cons q ps =>
      rw [List.intercalate_cons_cons, List.append_assoc]
      exact @IsLaidOut.cons [] p _ _ rfl (fun _ h => by cases h) (ih.blank_append rfl)

/-- the first row behind a piece is blank, or the next piece stands in it -/
theorem IsLaidOut.firstRow_cases {pieces : List Text} {src : Text} (h : IsLaidOut pieces src)
    (hp : ∀ p ∈ pieces, IsPiece p) : allBlank (firstRow src) = true ∨
      ∃ p ∈ pieces, ∃ gap rest, allBlank gap = true ∧ firstRow src = gap ++ (p ++ rest) := by
  cases h with
  | @nil gap hg =>
    left
    exact List.all_eq_true.2 fun c hc =>
      List.all_eq_true.1 hg c ((List.takeWhile_prefix _).subset hc)
  | @cons gap piece rest more hg hopen h =>
    rcases firstRow_blank_append hg (piece ++ rest) with hblank | hrow
    · exact .inl hblank
    · right
      rw [firstRow_append (hp piece List.mem_cons_self).oneLine] at hrow
      exact ⟨piece, List.mem_cons_self, gap, firstRow rest, hg, hrow⟩

theorem IsLaidOut.isFollowed {piece rest : Text} {more : List Text} (h : IsLaidOut more rest)
    (hp : ∀ p ∈ more, IsPiece p)
    (hopen : piece.getLast? = some '{' → nextVisible (firstRow rest) ≠ some '}') :
    IsFollowed piece (firstRow rest) := by
  rcases h.firstRow_cases hp with hblank | ⟨p, hmem, gap, u, hg, hrow⟩
  · have hnone := nextVisible_eq_none_iff.2 hblank
    refine ⟨?_, hopen, ?_⟩
    · intro c hc
      rw [hnone] at hc
      cases hc
    · rw [trimLeft_of_allBlank hblank]
      rfl
  · obtain ⟨c, r, rfl, hv, hc⟩ := (hp p hmem).first
    refine ⟨?_, hopen, ?_⟩
    · intro d hd
      rw [hrow, nextVisible_blank_append hg, List.cons_append, nextVisible_cons_of_visible hv] at hd
      rwa [← Option.some.inj hd]
    · rw [hrow, trimLeft_blank_append hg, List.cons_append, trimLeft_cons_of_visible hv]
      exact (hp _ hmem).noLabel u

theorem hasPair_append_of_last {a b : Char} {s : Text} (h : s.getLast? ≠ some a) (t : Text) :
    hasPair a b (s ++ t) = (hasPair a b s || hasPair a b t) := by
  induction s with
  | nil => rfl
  | cons c s ih =>
    cases s with
    | nil =>
      have hc : (c == a) = false := beq_eq_false_iff_ne.2 fun hca => h (congrArg some hca)
      rw [List.singleton_append, hasPair_cons, hasPair_cons, hc]
      rfl
    | cons d s =>
      rw [List.getLast?_cons_cons] at h
      rw [List.cons_append, hasPair_cons, hasPair_cons, ih h, Bool.or_assoc]
      rfl

theorem IsLaidOut.hasPair_eq {pieces : List Text} {src : Text} (h : IsLaidOut pieces src) {b : Char}
    (hp : ∀ p ∈ pieces, p.getLast? ≠ some '/' ∧ hasPair '/' b p = false) :
    hasPair '/' b src = false := by
  have hblank : ∀ {gap : Text}, allBlank gap = true → '/' ∉ gap := fun hg hm =>
    absurd (List.all_eq_true.1 hg _ hm) (by decide)
  induction h with
  | nil hg => exact hasPair_of_not_mem (hblank hg)
  | @cons gap piece rest more hg hopen h ih =>
    obtain ⟨hlast, hpiece⟩ := hp piece List.mem_cons_self
    have hgap : gap.getLast? ≠ some '/' := fun hl => hblank hg (List.mem_of_getLast? hl)
    rw [hasPair_append_of_last hgap, hasPair_append_of_last hlast, hpiece,
      hasPair_of_not_mem (hblank hg), ih fun p hm => hp p (List.mem_cons_of_mem _ hm)]
    rfl

/-- **a program is read as its pieces**, whatever its layout -/
theorem texts_of_layout {pieces : List Text} {src : Text} (h : IsLaidOut pieces src)
    (hp : ∀ p ∈ pieces, IsPiece p) : (statements src).map Statement.text = pieces := by
  rw [statements_texts (h.hasPair_eq fun p hm => ⟨(hp p hm).last, (hp p hm).noBlockComment⟩)
    (h.hasPair_eq fun p hm => ⟨(hp p hm).last, (hp p hm).noLineComment⟩)]
  show rowStatements src = pieces
  induction h with
  | @nil gap hg =>
    rw [← List.append_nil gap, rowStatements_blank_append hg]
    rfl
  | @cons gap piece rest more hg hopen h ih =>
    have hmore : ∀ p ∈ more, IsPiece p := fun p hm => hp p (List.mem_cons_of_mem _ hm)
    rw [rowStatements_blank_append hg,
      rowStatements_piece (hp piece List.mem_cons_self) (h.isFollowed hmore hopen), ih hmore]

/-! ## pieces behind which nothing is open -/

theorem IsFollowed.isSeam {p rest : Text} (h : IsFollowed p rest) {d : Char}
    (hd : p.getLast? = some d) (hv : isBlank d = false) : IsSeam p rest := by
  obtain ⟨t, rfl⟩ := List.getLast?_eq_some_iff.1 hd
  have hvisible := @lastVisible_append_cons d [] hv rfl t
  constructor
  · intro c e hc he
    rw [hvisible] at hc
    obtain rfl := Option.some.inj hc
    obtain ⟨hbrace, hsemi, _⟩ := h.firm e he
    rw [mem_brittleSeams]
    rintro (⟨_, rfl⟩ | ⟨rfl, rfl⟩ | ⟨_, rfl⟩)
    · exact hsemi rfl
    · exact h.opened hd he
    · exact hbrace rfl
  · intro hcolon
    obtain ⟨r, rfl⟩ := List.head?_eq_some_iff.1 hcolon
    exact (h.firm ':' (nextVisible_cons_of_visible (by decide) r)).2.2 rfl

theorem IsWholeLine.split {p : Text} (hw : IsWholeLine p)
    (hr : (Reader.fresh.readAll p).1.IsAtRest) {d : Char} (hd : p.getLast? = some d)
    (hv : isBlank d = false) :
    ∀ rest, IsFollowed p rest → splitLine (p ++ rest) = p :: splitLine rest := by
  intro rest h
  rw [splitLine_append_of_rest hr (h.isSeam hd hv), hw.single]
  rfl

theorem isAtRest_fresh : Reader.fresh.IsAtRest := ⟨rfl, rfl, rfl, rfl⟩

theorem isPiece_close : IsPiece ['}'] where
  toIsWholeLine := isWholeLine_close
  first := ⟨'}', [], rfl, by decide, by decide, by decide, by decide⟩
  last := by decide
  noLabel _ := rfl
  split := isWholeLine_close.split (show Reader.fresh.IsAtRest from isAtRest_fresh) rfl (by decide)

theorem IsKept.readAll_append {t : Text} (ht : IsKept t) (u : Text) :
    Reader.fresh.readAll (t ++ u) = (Reader.between t.reverse).readAll u := by
  have hread := ht [] u
  rw [List.append_nil] at hread
  rw [Reader.readAll_append, show Reader.fresh = Reader.between [] from rfl, hread]
  rfl

/-! ## statements with a group -/

theorem opensInitializer_grouped (w : Text) (g : Group) {gap : Text} (hg : allBlank gap = true) :
    opensInitializer (grouped w g gap).reverse = false := by
  have hrev : allBlank gap.reverse = true := by rwa [allBlank, List.all_reverse]
  refine @opensInitializer_of_head _ (w ++ '(' :: g.text).reverse ')' ?_ (by decide) (by decide)
    (by decide)
  have hsplit : (grouped w g gap).reverse = gap.reverse ++ ')' :: (w ++ '(' :: g.text).reverse := by
    simp [grouped]
  rw [hsplit, trimLeft_blank_append hrev, trimLeft_cons_of_visible (by decide)]

section
variable {w : Text} (hw : IsLead w) (hl : ∀ r, startsLabel (w ++ '(' :: r) = false) (g : Group)
include hw

theorem IsLead.first (rest : Text) : ∃ c r, grouped w g rest = c :: r ∧ isBlank c = false ∧
    c ≠ '{' ∧ c ≠ ';' ∧ c ≠ ':' := by
  obtain ⟨c, r, rfl, hc⟩ := hw.visible
  have hinert := hw.isInert c List.mem_cons_self
  refine ⟨c, _, rfl, hc, ?_, ?_, ?_⟩
  all_goals
    rintro rfl
    exact absurd hinert (by decide)

include hl

theorem isPiece_grouped {rest : Text} {d : Char} (hwhole : IsWholeLine (grouped w g rest))
    (hd : rest.getLast? = some d) (hv : isBlank d = false) (hs : d ≠ '/')
    (hr : (Reader.fresh.readAll (grouped w g rest)).1.IsAtRest) : IsPiece (grouped w g rest) := by
  have hlast : (grouped w g rest).getLast? = some d := by
    rw [grouped_eq, List.getLast?_append, hd]
    rfl
  refine ⟨hwhole, hw.first g rest, ?_, ?_, hwhole.split hr hlast hv⟩
  · rw [hlast]
    exact fun h => hs (Option.some.inj h)
  · intro u
    have hsplit : grouped w g rest ++ u = w ++ '(' :: (g.text ++ ')' :: (rest ++ u)) := by
      simp [grouped]
    rw [hsplit, hl]

/-- a call -/
theorem isPiece_semicolon : IsPiece (grouped w g [';']) := by
  refine isPiece_grouped hw hl g (d := ';') (isWholeLine_semicolon hw g) rfl (by decide)
    (by decide) ?_
  have hsplit : grouped w g [';'] = grouped w g [] ++ [';'] := by simp [grouped]
  rw [hsplit, (isKept_grouped hw g (by simp)).readAll_append]
  exact isAtRest_fresh

/-- a header with a block that is left open -/
theorem isPiece_brace : IsPiece (grouped w g [' ', '{']) := by
  refine isPiece_grouped hw hl g (d := '{') (isWholeLine_brace hw g) rfl (by decide) (by decide) ?_
  have hsplit : grouped w g [' ', '{'] = grouped w g [' '] ++ ['{'] := by simp [grouped]
  have hopen : (Reader.between (grouped w g [' ']).reverse).step '{' []
      = (Reader.fresh, segment ('{' :: (grouped w g [' ']).reverse)) := by
    show (Reader.between _).openBrace [] = _
    rw [Reader.openBrace, if_neg]
    · rfl
    · show ¬ opensInitializer (grouped w g [' ']).reverse = true
      rw [opensInitializer_grouped w g rfl]
      exact Bool.false_ne_true
  rw [hsplit, (isKept_grouped hw g (List.all_eq_true.1 rfl)).readAll_append, Reader.readAll_cons,
    hopen]
  exact isAtRest_fresh

end

/-! ## empty blocks -/

theorem Reader.read_emptyPair {gap : Text} (hg : allBlank gap = true) (pending after : Text) :
    (⟨.emptyPair, 0, 0, pending⟩ : Reader).read gap after
      = (⟨.emptyPair, 0, 0, gap.reverse ++ pending⟩, []) := by
  induction gap generalizing pending with
  | nil => rfl
  | cons c gap ih =>
    rw [allBlank, List.all_cons, Bool.and_eq_true] at hg
    have hc : c ≠ '}' := by
      rintro rfl
      exact absurd hg.1 (by decide)
    have hstep : (⟨.emptyPair, 0, 0, pending⟩ : Reader).step c (gap ++ after)
        = (⟨.emptyPair, 0, 0, c :: pending⟩, []) := by
      simp only [Reader.step, if_neg hc]
      rfl
    rw [Reader.read_cons, hstep, ih hg.2, List.reverse_cons, List.append_assoc]
    rfl

/-- an empty block behind a kept text is the end of one statement -/
theorem IsKept.readAll_pair {t gap : Text} (ht : IsKept t) (ho : opensInitializer t.reverse = false)
    (hg : allBlank gap = true) : Reader.fresh.readAll (t ++ '{' :: (gap ++ ['}']))
      = (Reader.fresh, segment (t ++ '{' :: (gap ++ ['}'])).reverse) := by
  have hnext : nextVisible (gap ++ ['}']) = some '}' := by
    rw [nextVisible_blank_append hg]
    rfl
  have hopen : (Reader.between t.reverse).step '{' (gap ++ ['}'])
      = (⟨.emptyPair, 0, 0, '{' :: t.reverse⟩, []) := by
    show (Reader.between t.reverse).openBrace (gap ++ ['}']) = _
    rw [Reader.openBrace, if_neg, if_pos hnext]
    · rfl
    · show ¬ opensInitializer t.reverse = true
      rw [ho]
      exact Bool.false_ne_true
  have hclose : ∀ pending : Text, (⟨.emptyPair, 0, 0, pending⟩ : Reader).readAll ['}']
      = (Reader.fresh, segment ('}' :: pending)) := by
    intro pending
    have hstep : (⟨.emptyPair, 0, 0, pending⟩ : Reader).step '}' []
        = (Reader.fresh, segment ('}' :: pending)) := rfl
    rw [Reader.readAll_cons, hstep, Reader.readAll_nil, List.append_nil]
  have hrev : (t ++ '{' :: (gap ++ ['}'])).reverse = '}' :: (gap.reverse ++ '{' :: t.reverse) := by
    simp
  rw [ht.readAll_append, Reader.readAll_cons, hopen, Reader.readAll_append,
    Reader.read_emptyPair hg, hclose, hrev]
  rfl

section
variable {w gap : Text} (hw : IsLead w) (hl : ∀ r, startsLabel (w ++ '(' :: r) = false) (g : Group)
  (hg : allBlank gap = true) (hn : '\n' ∉ gap)
include hw hg

theorem readAll_grouped_pair : Reader.fresh.readAll (grouped w g (' ' :: '{' :: (gap ++ ['}'])))
    = (Reader.fresh, segment (grouped w g (' ' :: '{' :: (gap ++ ['}']))).reverse) := by
  have hsplit : grouped w g (' ' :: '{' :: (gap ++ ['}']))
      = grouped w g [' '] ++ '{' :: (gap ++ ['}']) := by simp [grouped]
  rw [hsplit]
  exact (isKept_grouped hw g (List.all_eq_true.1 rfl)).readAll_pair
    (opensInitializer_grouped w g rfl) hg

include hn

theorem isWholeLine_pair : IsWholeLine (grouped w g (' ' :: '{' :: (gap ++ ['}']))) := by
  have hslash : '/' ∉ gap := fun hm => absurd (List.all_eq_true.1 hg _ hm) (by decide)
  have htrim := trim_grouped hw g (' ' :: '{' :: gap) (d := '}') (by decide)
  rw [List.cons_append, List.cons_append] at htrim
  have hne : grouped w g (' ' :: '{' :: (gap ++ ['}'])) ≠ [] := by simp [grouped]
  refine isWholeLine_grouped hw g (by simp [hn]) (by simp [hslash]) htrim ?_ (.inl ?_)
  · rw [segments_eq, Reader.pieces, readAll_grouped_pair hw g hg, segment_reverse htrim hne]
    rfl
  · rw [head?_trim]
    rfl

include hl

/-- a header with an empty block -/
theorem isPiece_pair : IsPiece (grouped w g (' ' :: '{' :: (gap ++ ['}']))) := by
  have hlast : (' ' :: '{' :: (gap ++ ['}'])).getLast? = some '}' := by
    rw [← List.cons_append, ← List.cons_append]
    exact List.getLast?_concat
  refine isPiece_grouped hw hl g (isWholeLine_pair hw g hg hn) hlast (by decide) (by decide) ?_
  rw [readAll_grouped_pair hw g hg]
  exact isAtRest_fresh

end

/-! ## headers without a block -/

/-- a header and the piece behind it, if there is one -/
theorem ConditionLead.peelHeaders_cons {lead g s : Text} (hl : ConditionLead lead)
    (hg : isBalanced 0 .outside g = true)
    (he : elseBody? (lead ++ '(' :: (g ++ ')' :: trimRight s)) = none)
    (hbody : ∀ c, nextVisible s = some c → c ≠ '{' ∧ c ≠ ';') :
    peelHeaders (lead ++ '(' :: (g ++ ')' :: trimRight s))
      = (lead ++ '(' :: (g ++ [')'])) :: (segment s.reverse).flatMap peelHeaders := by
  obtain ⟨after, hafter, hright⟩ := exists_trimRight s
  have hsame : nextVisible (trimRight s) = nextVisible s := by
    conv_rhs => rw [hright]
    rw [nextVisible_append, nextVisible_eq_none_iff.2 hafter, Option.or_none]
  cases hv : nextVisible s with
  | none =>
    have hblank := nextVisible_eq_none_iff.1 hv
    have hrev : allBlank s.reverse = true := by rwa [allBlank, List.all_reverse]
    have hnobody : ¬ HasBody (trimRight s) := by
      rintro ⟨c, hc, _⟩
      rw [hsame, hv] at hc
      cases hc
    have hempty : trimRight s = [] := by
      show (trimLeft s.reverse).reverse = []
      rw [trimLeft_of_allBlank hrev]
      rfl
    rw [segment_of_allBlank hrev, peelHeaders_of_none he (hl.conditionBody?_of_no_body hg hnobody),
      hempty]
    rfl
  | some c =>
    have htrim : trim (trimRight s) = trim s := by
      conv_rhs => rw [hright]
      rw [trim_append_blank hafter]
    have hne : trim s ≠ [] := by
      intro hnil
      have hhead := head?_trim s
      rw [hnil, hv] at hhead
      cases hhead
    rw [peelHeaders_of_condition he
        (hl.conditionBody?_of_body hg ⟨c, hsame.trans hv, hbody c hv⟩), htrim,
      segment_of_visible (by rwa [List.reverse_reverse]), List.reverse_reverse,
      List.flatMap_singleton]

/-- what is behind a bare header on its line is cut as if it stood alone -/
theorem ConditionLead.splitLine_cons {lead g rest : Text} (hl : ConditionLead lead)
    (hg : isBalanced 0 .outside g = true) (helse : ∀ r, elseBody? (lead ++ r) = none)
    (hnext : ∀ c, nextVisible rest = some c → c ≠ '{' ∧ c ≠ ';')
    (hlabel : startsLabel (trimLeft rest) = false) :
    splitLine (lead ++ '(' :: (g ++ [')']) ++ rest)
      = (lead ++ '(' :: (g ++ [')'])) :: splitLine rest := by
  obtain ⟨s, more, hs, hwith, hwithout⟩ :=
    segments_leadIn (@ConditionLead.isLeadIn _ _ [] hl hg rfl) hlabel
  -- the first piece is the header with the trimmed beginning of the rest behind it
  have hfirst : trim (lead ++ '(' :: (g ++ [')']) ++ s)
      = lead ++ '(' :: (g ++ ')' :: trimRight s) := by
    obtain ⟨c, r, rfl, hc⟩ := hl.visible
    have hsplit : c :: r ++ '(' :: (g ++ [')']) ++ s = (c :: r ++ '(' :: g) ++ ')' :: s := by simp
    rw [hsplit, trim_append_cons (by decide), List.cons_append, trimLeft_cons_of_visible hc]
    simp
  have hbody : ∀ c, nextVisible s = some c → c ≠ '{' ∧ c ≠ ';' := by
    intro c hc
    refine hnext c ?_
    obtain ⟨u, rfl⟩ := hs
    rw [nextVisible_append, hc]
    rfl
  rw [splitLine, splitLine, hwith, hwithout, List.flatMap_cons, hfirst,
    hl.peelHeaders_cons hg (helse _) hbody, List.flatMap_append, List.cons_append]

section
variable {word : Text} (hw : word ∈ conditionWords)
include hw

theorem elseBody?_of_word (r : Text) : elseBody? (word ++ [' '] ++ r) = none := by
  rw [List.append_assoc, elseBody?, (afterElse?_of_word hw _).1]

theorem isLead_word : IsLead (word ++ [' ']) := by
  rcases mem_conditionWords hw with rfl | rfl | rfl | rfl | rfl
  all_goals exact ⟨⟨_, _, rfl, by decide⟩, by decide, by decide, by decide, fun _ => rfl⟩

theorem startsLabel_word (r : Text) : startsLabel (word ++ [' '] ++ r) = false :=
  (ConditionLead.word hw rfl).startsLabel_eq r

theorem isWholeLine_header (c : Group) : IsWholeLine (grouped (word ++ [' ']) c []) := by
  have hlead := isLead_word hw
  have hcondition : ConditionLead (word ++ [' ']) := .word hw rfl
  have hline : '\n' ∉ grouped (word ++ [' ']) c [] := by
    have hw' := hlead.oneLine
    have hc := c.oneLine
    simp only [grouped, List.mem_append, List.mem_cons, not_or] at hw' ⊢
    exact ⟨hw', by decide, hc, by decide, by simp⟩
  have helse : elseBody? (grouped (word ++ [' ']) c []) = none := by
    rw [elseBody?, grouped, hlead.noElse]
  exact ⟨hline, hasPair_grouped hlead c c.noBlockComment (by simp) (by decide) (by decide),
    hasPair_grouped hlead c c.noLineComment (by simp) (by decide) (by decide),
    (hcondition.isTrimmed c.text).trimmed,
    hcondition.splitLine_eq c.balanced hline helse⟩

/-- a header whose body is the next statement -/
theorem isPiece_header (c : Group) : IsPiece (grouped (word ++ [' ']) c []) where
  toIsWholeLine := isWholeLine_header hw c
  first := (isLead_word hw).first c []
  last := by
    rw [grouped_eq, List.append_nil, ← List.cons_append, ← List.append_assoc, List.getLast?_concat]
    decide
  noLabel u := by
    rw [grouped, List.append_assoc]
    exact startsLabel_word hw _
  split rest h :=
    (ConditionLead.word hw rfl).splitLine_cons c.balanced (elseBody?_of_word hw)
      (fun d hd => ⟨(h.firm d hd).1, (h.firm d hd).2.1⟩) h.noLabel

end

end CodeChart
