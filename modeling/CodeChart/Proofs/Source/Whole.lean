import CodeChart.Proofs.Source.Parenthesis
import CodeChart.Source.Segment

/-!
# Statements that the reader leaves whole

* `isInert`           a character at which nothing can happen outside literals;
* `isBalanced`        a text whose parentheses and literals are closed in it;
* `parensAfter`       the depth behind a character inside a group, for such texts
                      (`isBalanced_cons_iff`), for the reader (`Reader.step_of_parens`) and for the
                      search for a closing parenthesis (`closeOffset?_cons`);
* `IsKept`            a text that is read without a cut, and leaves the reader as it was; texts of
                      inert characters are, groups in parentheses, and one such text after another;
* `segments_semicolon`, `segments_brace`   such a text and the character that ends a statement;
* `closeOffset?_of_balanced`, `closingParen?_of_group`   the parenthesis that closes a balanced
                      group; behind it, `conditionBody?_of_group` peels off no header.
-/

namespace CodeChart

/-! ## characters and groups -/

def isInert (c : Char) : Bool :=
  !(isQuote c || c == '(' || c == ')' || c == '{' || c == '}' || c == ';' || c == ':')

theorem isQuote_of_isInert {c : Char} (h : isInert c = true) : isQuote c = false := by
  simp only [isInert, Bool.not_eq_true', Bool.or_eq_false_iff] at h
  exact h.1.1.1.1.1.1

/-- parentheses and literals are closed at the end, inside `depth` open parentheses -/
def isBalanced (depth : Nat) (l : Literal) : Text → Bool
  | [] => depth == 0 && l == .outside
  | c :: rest =>
    if l = .outside then
      if c = '(' then isBalanced (depth + 1) l rest
      else if c = ')' then depth != 0 && isBalanced (depth - 1) l rest
      else isBalanced depth (l.next c) rest
    else isBalanced depth (l.next c) rest

/-! ## one character inside a group -/

/-- only parentheses outside literals count -/
def parensAfter (l : Literal) (parens : Nat) (c : Char) : Nat :=
  if l = .outside then
    if c = '(' then parens + 1 else if c = ')' then parens - 1 else parens
  else parens

/-- only a closing parenthesis outside literals leads out of a group -/
theorem eq_of_parensAfter_eq_zero {l : Literal} {parens : Nat} {c : Char} (hp : 0 < parens)
    (h : parensAfter l parens c = 0) : l = .outside ∧ c = ')' ∧ parens = 1 := by
  unfold parensAfter at h
  by_cases hl : l = .outside
  · rw [if_pos hl] at h
    by_cases ho : c = '('
    · rw [if_pos ho] at h
      omega
    rw [if_neg ho] at h
    by_cases hc : c = ')'
    · rw [if_pos hc] at h
      exact ⟨hl, hc, by omega⟩
    · rw [if_neg hc] at h
      omega
  · rw [if_neg hl] at h
    omega

/-- a balanced text goes on as deep as its first character leads -/
theorem isBalanced_cons_iff {depth : Nat} {l : Literal} {c : Char} {g : Text} :
    isBalanced depth l (c :: g) = true ↔
      ∃ depth', parensAfter l (depth + 1) c = depth' + 1 ∧
        isBalanced depth' (l.next c) g = true := by
  have hinside : parensAfter l (depth + 1) c = depth + 1 →
      (isBalanced depth (l.next c) g = true ↔ ∃ depth', parensAfter l (depth + 1) c = depth' + 1 ∧
        isBalanced depth' (l.next c) g = true) := by
    intro hparens
    rw [hparens]
    exact ⟨fun h => ⟨depth, rfl, h⟩, fun ⟨_, hd, h⟩ => by rwa [Nat.succ.inj hd]⟩
  rw [isBalanced]
  by_cases hl : l = .outside
  · subst hl
    rw [if_pos rfl]
    by_cases ho : c = '('
    · subst ho
      rw [if_pos rfl]
      exact ⟨fun h => ⟨depth + 1, rfl, h⟩, fun ⟨_, hd, h⟩ => by rwa [← Nat.succ.inj hd] at h⟩
    rw [if_neg ho]
    by_cases hc : c = ')'
    · subst hc
      have hparens : parensAfter .outside (depth + 1) ')' = depth := rfl
      rw [if_pos rfl, hparens, Bool.and_eq_true, bne_iff_ne]
      constructor
      · rintro ⟨hne, h⟩
        exact ⟨depth - 1, by omega, h⟩
      · rintro ⟨depth', rfl, h⟩
        exact ⟨Nat.succ_ne_zero _, h⟩
    · rw [if_neg hc]
      exact hinside (by rw [parensAfter, if_pos rfl, if_neg ho, if_neg hc])
  · rw [if_neg hl]
    exact hinside (by rw [parensAfter, if_neg hl])

theorem Reader.step_of_parens {r : Reader} {l : Literal} (hm : r.mode = .code l)
    (hp : 0 < r.parens) (c : Char) (rest : Text) :
    r.step c rest =
      (⟨.code (l.next c), parensAfter l r.parens c, r.initializers, c :: r.pending⟩, []) := by
  obtain ⟨mode, parens, initializers, pending⟩ := r
  obtain rfl : mode = .code l := hm
  cases l with
  | within q => rfl
  | escaped q => rfl
  | outside =>
    show Reader.stepCode _ c rest = _
    unfold Reader.stepCode
    by_cases hq : isQuote c = true
    · have ho : c ≠ '(' := fun h => absurd (h ▸ hq) (by decide)
      have hc : c ≠ ')' := fun h => absurd (h ▸ hq) (by decide)
      rw [if_pos hq, Literal.next, if_pos hq, parensAfter, if_pos rfl, if_neg ho, if_neg hc]
      rfl
    rw [if_neg hq, Literal.next, if_neg hq, parensAfter, if_pos rfl]
    by_cases ho : c = '('
    · rw [if_pos ho, if_pos ho]
      rfl
    rw [if_neg ho, if_neg ho]
    by_cases hc : c = ')'
    · rw [if_pos hc, if_pos hc]
      rfl
    rw [if_neg hc, if_neg hc, if_pos hp]
    rfl

/-- the search ends where the depth does -/
theorem closeOffset?_cons {parens : Nat} (hp : 0 < parens) (l : Literal) (c : Char) (rest : Text) :
    closeOffset? parens l (c :: rest) =
      if parensAfter l parens c = 0 then some 0
      else (closeOffset? (parensAfter l parens c : Nat) (l.next c) rest).map (· + 1) := by
  rw [closeOffset?, parensAfter]
  by_cases hl : l = .outside
  · rw [if_pos hl, if_pos hl, depthAfter]
    by_cases ho : c = '('
    · subst ho
      rw [if_neg (by simp), if_pos rfl, if_pos rfl, if_neg (Nat.succ_ne_zero _)]
      rfl
    rw [if_neg ho, if_neg ho]
    by_cases hc : c = ')'
    · have hpred : ((parens - 1 : Nat) : Int) = (parens : Int) - 1 := by omega
      rw [if_pos hc, if_pos hc, hpred]
      by_cases hone : parens = 1
      · rw [if_pos ⟨hc, by omega⟩, if_pos (by omega)]
      · rw [if_neg (by omega), if_neg (by omega)]
    · rw [if_neg hc, if_neg hc, if_neg fun h => hc h.1, if_neg (by omega)]
  · rw [if_neg hl, if_neg hl, if_neg (by omega)]

/-! ## texts without a cut -/

def Reader.between (pending : Text) : Reader := ⟨.code .outside, 0, 0, pending⟩

def IsKept (t : Text) : Prop :=
  ∀ pending after,
    (Reader.between pending).read t after = (Reader.between (t.reverse ++ pending), [])

theorem IsKept.append {a b : Text} (ha : IsKept a) (hb : IsKept b) : IsKept (a ++ b) := by
  intro pending after
  rw [Reader.read_append, ha, hb, List.reverse_append, List.append_assoc]
  rfl

theorem Reader.step_inert {c : Char} (h : isInert c = true) (pending rest : Text) :
    (Reader.between pending).step c rest = (Reader.between (c :: pending), []) := by
  simp only [isInert, Bool.not_eq_true', Bool.or_eq_false_iff, beq_eq_false_iff_ne] at h
  obtain ⟨⟨⟨⟨⟨⟨hq, ho⟩, hc⟩, hl⟩, hr⟩, hs⟩, hk⟩ := h
  simp [Reader.step, Reader.stepCode, Reader.between, Reader.keep, hq, ho, hc, hl, hr, hs, hk]

theorem isKept_of_inert {t : Text} (h : ∀ c ∈ t, isInert c = true) : IsKept t := by
  induction t with
  | nil =>
    intro pending after
    rfl
  | cons c t ih =>
    intro pending after
    have hrest := ih (fun d hd => h d (List.mem_cons_of_mem c hd))
    rw [Reader.read_cons, Reader.step_inert (h c List.mem_cons_self), hrest, List.reverse_cons,
      List.append_assoc]
    rfl

/-- inside parentheses nothing ends, whatever literals and parentheses open there -/
theorem Reader.read_balanced {g : Text} {depth : Nat} {l : Literal}
    (h : isBalanced depth l g = true) (pending after : Text) :
    (⟨.code l, depth + 1, 0, pending⟩ : Reader).read g after
      = (⟨.code .outside, 1, 0, g.reverse ++ pending⟩, []) := by
  induction g generalizing depth l pending with
  | nil =>
    simp only [isBalanced, Bool.and_eq_true, beq_iff_eq] at h
    obtain ⟨rfl, rfl⟩ := h
    rfl
  | cons c g ih =>
    obtain ⟨depth', hparens, hg⟩ := isBalanced_cons_iff.1 h
    rw [Reader.read_cons, Reader.step_of_parens rfl (Nat.succ_pos _), hparens, ih hg,
      List.reverse_cons, List.append_assoc]
    rfl

theorem isKept_group {g : Text} (h : isBalanced 0 .outside g = true) :
    IsKept ('(' :: (g ++ [')'])) := by
  intro pending after
  have hopen : (Reader.between pending).step '(' (g ++ [')'] ++ after)
      = (⟨.code .outside, 1, 0, '(' :: pending⟩, []) := rfl
  have hclose : (⟨.code .outside, 1, 0, g.reverse ++ '(' :: pending⟩ : Reader).read [')'] after
      = (Reader.between (')' :: (g.reverse ++ '(' :: pending)), []) := rfl
  rw [Reader.read_cons, hopen, Reader.read_append, Reader.read_balanced h, hclose]
  simp

/-! ## the end of a statement -/

theorem segment_reverse {t : Text} (h : trim t = t) (hne : t ≠ []) : segment t.reverse = [t] := by
  have hempty : ¬ (t.isEmpty = true) := fun he => hne (List.isEmpty_iff.1 he)
  simp [segment, h, hempty]

/-- a kept text and a last character at which the reader cuts -/
theorem segments_of_cut {t : Text} {c : Char} (ht : IsKept t)
    (hcut : (Reader.between t.reverse).step c [] = ((Reader.between t.reverse).keep c).cut)
    (htrim : trim (t ++ [c]) = t ++ [c]) : segments (t ++ [c]) = [t ++ [c]] := by
  have hread : Reader.fresh.read t [c] = (Reader.between t.reverse, []) := by
    have := ht [] [c]
    rwa [List.append_nil] at this
  have hseg : segment (c :: t.reverse) = [t ++ [c]] := by
    have hs := segment_reverse htrim (by simp)
    rwa [List.reverse_append] at hs
  have hlast : (Reader.between t.reverse).readAll [c] = (Reader.between [], [t ++ [c]]) := by
    rw [Reader.readAll_cons, hcut, Reader.cut_fst, Reader.cut_snd, Reader.readAll_nil]
    show (_, segment (c :: t.reverse) ++ []) = _
    rw [hseg]
    rfl
  rw [segments, Reader.readAll_append, hread, hlast]
  rfl

theorem segments_semicolon {t : Text} (ht : IsKept t)
    (htrim : trim (t ++ [';']) = t ++ [';']) : segments (t ++ [';']) = [t ++ [';']] :=
  segments_of_cut ht rfl htrim

theorem segments_brace {t : Text} (ht : IsKept t) (ho : opensInitializer t.reverse = false)
    (htrim : trim (t ++ ['{']) = t ++ ['{']) : segments (t ++ ['{']) = [t ++ ['{']] := by
  refine segments_of_cut ht ?_ htrim
  show (Reader.between t.reverse).openBrace [] = _
  unfold Reader.openBrace
  rw [if_neg (by rw [show (Reader.between t.reverse).pending = t.reverse from rfl, ho]; decide)]
  rfl

/-- only an equals sign, a comma and the end of `return` come before an initializer -/
theorem opensInitializer_of_head {pending rest : Text} {c : Char} (h : trimLeft pending = c :: rest)
    (he : c ≠ '=') (hc : c ≠ ',') (hn : c ≠ 'n') : opensInitializer pending = false := by
  simp [opensInitializer, h, he, hc, hn.symm]

/-! ## the parenthesis that closes a group -/

/-- a header and what stands behind it -/
theorem header_append (w g rest : Text) :
    w ++ '(' :: (g ++ ')' :: rest) = w ++ '(' :: (g ++ [')']) ++ rest := by
  simp

theorem closeOffset?_of_balanced {g rest : Text} {depth : Nat} {l : Literal}
    (h : isBalanced depth l g = true) :
    closeOffset? (depth + 1 : Nat) l (g ++ ')' :: rest) = some g.length := by
  induction g generalizing depth l with
  | nil =>
    simp only [isBalanced, Bool.and_eq_true, beq_iff_eq] at h
    obtain ⟨rfl, rfl⟩ := h
    rfl
  | cons c g ih =>
    obtain ⟨depth', hparens, hg⟩ := isBalanced_cons_iff.1 h
    rw [List.cons_append, closeOffset?_cons (Nat.succ_pos _), hparens,
      if_neg (Nat.succ_ne_zero _), ih hg]
    rfl

theorem closingParen?_of_group {w g rest : Text} (hg : isBalanced 0 .outside g = true) :
    closingParen? (w ++ '(' :: (g ++ ')' :: rest)) w.length = some (w.length + (g.length + 1)) := by
  have hin : closeOffset? (1 : Nat) .outside (g ++ ')' :: rest) = some g.length :=
    closeOffset?_of_balanced hg
  rw [closingParen?_behind, hin]
  rfl

/-- nothing is peeled off in front of a brace or a semicolon -/
theorem conditionBody?_of_group {w g rest : Text} (hw : '(' ∉ w)
    (hg : isBalanced 0 .outside g = true)
    (hrest : (trim rest).head? = some '{' ∨ (trim rest).head? = some ';') :
    conditionBody? (w ++ '(' :: (g ++ ')' :: rest)) = none := by
  have hidx : (w ++ '(' :: (g ++ ')' :: rest)).idxOf '(' = w.length := by
    rw [List.idxOf_append, if_neg hw, List.idxOf_cons_self, Nat.zero_add]
  have hdrop : (w ++ '(' :: (g ++ ')' :: rest)).drop (w.length + (g.length + 1) + 1) = rest := by
    rw [header_append, List.drop_left' (by simp [Nat.add_assoc])]
  unfold conditionBody?
  split
  · rw [hidx, closingParen?_of_group hg]
    simp only [hdrop]
    rw [if_pos]
    rcases hrest with h | h
    · simp [h]
    · simp [h]
  · rfl

end CodeChart
