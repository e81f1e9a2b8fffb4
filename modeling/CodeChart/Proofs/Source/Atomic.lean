import CodeChart.Proofs.Source.Peel
import CodeChart.Proofs.Source.Pieces
import CodeChart.Proofs.Source.Seam
import Mathlib.Data.List.Chain

/-!
# Statements read again

A statement that was cut out of a line is cut no further when it stands alone, with nothing in
front of it and nothing behind.

* `Reader.Tracks`        the reader is where it would be if it had started with the pending text;
                         every step keeps this (`Reader.Tracks.step`);
* `segments_of_mem_segments`   so a piece of a line is one piece by itself;
* `isBareHeader`         a header that is a statement without its body;
* `splitLine_of_mem`     peeling the headers off a piece leaves statements of this kind too;
* `normalized_normalized`   a source text in which every statement has its own line.
-/

namespace CodeChart

/-! ## the pending text, read from the start -/

structure Reader.Tracks (r : Reader) (rest : Text) : Prop where
  reads : Reader.fresh.read r.pending.reverse rest = (r, [])
  quotes : ∀ q, r.mode = .code (.within q) ∨ r.mode = .code (.escaped q) → isQuote q = true
  emptyPair : r.mode = .emptyPair →
    r.parens = 0 ∧ r.initializers = 0 ∧ nextVisible rest = some '}'
  closer : r.mode = .closer → r.parens = 0 ∧ r.initializers = 0 ∧ nextVisible rest = some ';'
  /-- outside parentheses and initializers, an empty pair of braces is not missed -/
  firm : ∀ pending, r = Reader.between pending → nextVisible pending = some '{' →
    nextVisible rest ≠ some '}'

/-- the result of a step in front of `rest`: pieces that are one piece each, and a reader that
tracks its pending text -/
structure Continues (rest : Text) (x : Reader × List Text) : Prop where
  tracks : x.1.Tracks rest
  atomic : ∀ seg ∈ x.2, segments seg = [seg]

theorem Reader.tracks_fresh (rest : Text) : Reader.fresh.Tracks rest where
  reads := rfl
  quotes q h := by rcases h with h | h <;> cases h
  emptyPair h := by cases h
  closer h := by cases h
  firm pending h hnext := by
    have hp : ([] : Text) = pending := congrArg Reader.pending h
    rw [← hp] at hnext
    cases hnext

theorem mem_segment {pending seg : Text} (h : seg ∈ segment pending) :
    seg = trim pending.reverse ∧ segment pending = [seg] := by
  simp only [segment] at h ⊢
  split at h
  · cases h
  · rename_i hne
    rw [if_neg hne, List.mem_singleton.1 h]
    exact ⟨rfl, rfl⟩

section
variable {r r' : Reader} {c : Char} {rest : Text} (h : r.Tracks (c :: rest))
include h

/-! ## pieces that are cut off -/

/-- the pending text up to and with the character that ends it -/
theorem Reader.Tracks.atomic_cut (hv : isBlank c = false)
    (hfirm : ∀ e, nextVisible rest = some e → (c, e) ∉ brittleSeams)
    (hcolon : c = ':' → rest.head? ≠ some ':') {mode : Mode} {parens initializers : Nat}
    (hstep : r.step c rest = (⟨mode, parens, initializers, []⟩, segment (c :: r.pending))) :
    ∀ seg ∈ segment (c :: r.pending), segments seg = [seg] := by
  intro seg hseg
  obtain ⟨rfl, hone⟩ := mem_segment hseg
  have hread : Reader.fresh.read r.pending.reverse [c] = (r, []) := by
    rw [Reader.read_congr (.of_visible hv [] rest)]
    exact h.reads
  have hlast : r.pieces [c] = segment (c :: r.pending) := by
    rw [Reader.pieces_cons, ← r.step_seam hfirm hcolon, hstep]
    exact List.append_nil _
  rw [segments_trim, List.reverse_cons, segments_eq, Reader.pieces_append, hread, hlast, hone]
  simp

/-- the pending text in front of a closing brace -/
theorem Reader.Tracks.atomic_pending {pending : Text} (hc : c = '}')
    (hr : r = Reader.between pending) : ∀ seg ∈ segment pending, segments seg = [seg] := by
  subst hc hr
  intro seg hseg
  obtain ⟨rfl, hone⟩ := mem_segment hseg
  have hbrace : nextVisible ('}' :: rest) = some '}' := nextVisible_cons_of_visible (by decide) rest
  have hseam : IsSeam pending.reverse ('}' :: rest) := by
    refine ⟨fun d e hd he hde => ?_, by simp⟩
    rw [hbrace] at he
    rw [lastVisible, List.reverse_reverse] at hd
    obtain rfl := Option.some.inj he
    have hopen : d = '{' := by simpa [mem_brittleSeams] using hde
    exact h.firm pending rfl (hopen ▸ hd) hbrace
  have hread : Reader.fresh.readAll pending.reverse = (Reader.between pending, []) := by
    rw [← Reader.read_seam hseam]
    exact h.reads
  rw [segments_trim, segments_eq, Reader.pieces, hread, List.nil_append]
  exact hone

/-! ## characters that are kept -/

theorem Reader.Tracks.reads_keep (hstep : r.step c rest = (r', []))
    (hp : r'.pending = c :: r.pending) :
    Reader.fresh.read r'.pending.reverse rest = (r', []) := by
  rw [hp, List.reverse_cons, Reader.read_append, List.singleton_append, h.reads, Reader.read_cons,
    List.nil_append, hstep]
  rfl

theorem Reader.Tracks.keep {l : Literal} (hstep : r.step c rest = (r', []))
    (hp : r'.pending = c :: r.pending) (hmode : r'.mode = .code l)
    (hquote : ∀ q, l = .within q ∨ l = .escaped q → isQuote q = true)
    (hfirm : ∀ pending, r' = Reader.between pending →
      c ≠ '{' ∧ (isBlank c = true → r = Reader.between r.pending)) :
    Continues rest (r.step c rest) := by
  rw [hstep]
  refine ⟨⟨h.reads_keep hstep hp, ?_, ?_, ?_, ?_⟩, fun seg hseg => by cases hseg⟩
  · intro q hq
    rw [hmode] at hq
    exact hquote q (hq.imp Mode.code.inj Mode.code.inj)
  · intro hm
    rw [hmode] at hm
    cases hm
  · intro hm
    rw [hmode] at hm
    cases hm
  · intro pending hr hopen
    obtain ⟨hne, hblank⟩ := hfirm pending hr
    have hpending : pending = c :: r.pending := (congrArg Reader.pending hr).symm.trans hp
    cases hc : isBlank c with
    | true =>
      have hgap : allBlank [c] = true := by simp [allBlank, hc]
      rw [hpending, ← List.singleton_append, nextVisible_blank_append hgap] at hopen
      have hprev := h.firm r.pending (hblank hc) hopen
      rwa [← List.singleton_append, nextVisible_blank_append hgap] at hprev
    | false =>
      rw [hpending, nextVisible_cons_of_visible hc] at hopen
      exact absurd (Option.some.inj hopen) hne

/-- inside parentheses, initializers and literals -/
theorem Reader.Tracks.keep_busy {l : Literal} (hstep : r.step c rest = (r', []))
    (hp : r'.pending = c :: r.pending) (hmode : r'.mode = .code l)
    (hquote : ∀ q, l = .within q ∨ l = .escaped q → isQuote q = true)
    (hbusy : ∀ pending, r' ≠ Reader.between pending) : Continues rest (r.step c rest) :=
  h.keep hstep hp hmode hquote fun pending hr => absurd hr (hbusy pending)

/-- behind a character that can be seen and opens no block -/
theorem Reader.Tracks.keep_visible (hstep : r.step c rest = (r', []))
    (hp : r'.pending = c :: r.pending) (hmode : r'.mode = .code .outside) (hv : isBlank c = false)
    (hne : c ≠ '{') : Continues rest (r.step c rest) :=
  h.keep hstep hp hmode (fun q hq => by rcases hq with hq | hq <;> cases hq) fun _ _ =>
    ⟨hne, fun hb => absurd hb (by rw [hv]; decide)⟩

end

/-! ## one character -/

section
variable {r : Reader} {c : Char} {rest : Text} (h : r.Tracks (c :: rest))
include h

theorem Reader.Tracks.openBrace (hr : r = Reader.between r.pending) (hc : c = '{')
    (hstep : r.step c rest = r.openBrace rest) : Continues rest (r.step c rest) := by
  subst hc
  have hmode : r.mode = .code .outside := congrArg Reader.mode hr
  unfold Reader.openBrace at hstep
  split at hstep
  · refine h.keep_busy hstep rfl hmode (fun q hq => by rcases hq with hq | hq <;> cases hq) ?_
    intro pending hp
    cases congrArg Reader.initializers hp
  split at hstep
  · rename_i hnext
    rw [hstep]
    refine ⟨⟨h.reads_keep hstep rfl, ?_, ?_, ?_, ?_⟩, fun seg hseg => by cases hseg⟩
    · intro q hq
      rcases hq with hq | hq <;> cases hq
    · intro _
      exact ⟨congrArg Reader.parens hr, congrArg Reader.initializers hr, hnext⟩
    · intro hm
      cases hm
    · intro pending hp
      cases congrArg Reader.mode hp
  · rename_i hnext
    have hcut : r.step '{' rest = (Reader.fresh, segment ('{' :: r.pending)) := by
      rw [hstep, hr]
      rfl
    have hfirm : ∀ e, nextVisible rest = some e → ('{', e) ∉ brittleSeams := by
      intro e he hbrittle
      have hclose : e = '}' := by simpa [mem_brittleSeams] using hbrittle
      exact hnext (hclose ▸ he)
    have hatomic := h.atomic_cut (by decide) hfirm (fun hcolon => by cases hcolon) hcut
    rw [hcut]
    exact ⟨Reader.tracks_fresh rest, hatomic⟩

theorem Reader.Tracks.closeBrace (hr : r = Reader.between r.pending) (hc : c = '}')
    (hstep : r.step c rest = r.closeBrace rest) : Continues rest (r.step c rest) := by
  have hpending := h.atomic_pending hc hr
  rw [hstep, hr]
  simp only [Reader.closeBrace]
  split
  · rename_i hnext
    refine ⟨⟨?_, ?_, ?_, ?_, ?_⟩, hpending⟩
    · show Reader.fresh.read ['}'] rest = (⟨.closer, 0, 0, ['}']⟩, [])
      have hfirst : Reader.fresh.step '}' rest = (⟨.closer, 0, 0, ['}']⟩, []) := by
        show Reader.fresh.closeBrace rest = _
        simp only [Reader.closeBrace, if_pos hnext]
        rfl
      rw [Reader.read_cons, List.nil_append, hfirst]
      rfl
    · intro q hq
      rcases hq with hq | hq <;> cases hq
    · intro hm
      cases hm
    · intro _
      exact ⟨rfl, rfl, hnext⟩
    · intro pending hp
      cases congrArg Reader.mode hp
  · refine ⟨Reader.tracks_fresh rest, ?_⟩
    intro seg hseg
    rcases List.mem_append.1 hseg with hseg | hseg
    · exact hpending seg hseg
    · have hbrace : seg ∈ [['}']] := hseg
      rw [List.mem_singleton.1 hbrace]
      decide

/-- a semicolon, a label and the ends of the closing braces -/
theorem Reader.Tracks.end_of_statement (hidle : r.parens = 0 ∧ r.initializers = 0)
    (hv : isBlank c = false) (hfirm : ∀ e, nextVisible rest = some e → (c, e) ∉ brittleSeams)
    (hcolon : c = ':' → rest.head? ≠ some ':')
    (hstep : r.step c rest = ({ r.keep c with mode := .code .outside } : Reader).cut) :
    Continues rest (r.step c rest) := by
  have hcut : r.step c rest = (Reader.fresh, segment (c :: r.pending)) := by
    rw [hstep, Reader.cut, Reader.keep]
    simp only [hidle.1, hidle.2]
    rfl
  have hatomic := h.atomic_cut hv hfirm hcolon hcut
  rw [hcut]
  exact ⟨Reader.tracks_fresh rest, hatomic⟩

/-- outside of literals, parentheses and initializers -/
theorem Reader.Tracks.step_between (hr : r = Reader.between r.pending)
    (hstep : r.step c rest = if c = '{' then r.openBrace rest
      else if c = '}' then r.closeBrace rest
      else if c = ';' then (r.keep c).cut
      else if c = ':' ∧ endsLabel r.pending rest then (r.keep c).cut
      else (r.keep c, [])) : Continues rest (r.step c rest) := by
  have hmode : r.mode = .code .outside := congrArg Reader.mode hr
  have hidle : r.parens = 0 ∧ r.initializers = 0 :=
    ⟨congrArg Reader.parens hr, congrArg Reader.initializers hr⟩
  have hkeep : ({ r.keep c with mode := .code .outside } : Reader) = r.keep c := by
    rw [hr]
    rfl
  by_cases hopen : c = '{'
  · rw [if_pos hopen] at hstep
    exact h.openBrace hr hopen hstep
  rw [if_neg hopen] at hstep
  by_cases hclose : c = '}'
  · rw [if_pos hclose] at hstep
    exact h.closeBrace hr hclose hstep
  rw [if_neg hclose] at hstep
  by_cases hs : c = ';'
  · rw [if_pos hs, ← hkeep] at hstep
    subst hs
    exact h.end_of_statement hidle (by decide) (fun e _ => by simp [mem_brittleSeams])
      (fun hcolon => by cases hcolon) hstep
  rw [if_neg hs] at hstep
  split at hstep
  · rename_i hlabel
    rw [← hkeep] at hstep
    obtain ⟨rfl, hends⟩ := hlabel
    simp only [endsLabel, Bool.and_eq_true, bne_iff_ne] at hends
    refine h.end_of_statement hidle (by decide) ?_ (fun _ => hends.1.1.1) hstep
    intro e he hbrittle
    have hbrace : e = '{' := by simpa [mem_brittleSeams] using hbrittle
    exact hends.2 (hbrace ▸ he)
  · refine h.keep hstep rfl hmode ?_ fun pending hp => ⟨hopen, fun _ => hr⟩
    intro q hq
    rcases hq with hq | hq <;> cases hq

theorem Reader.Tracks.stepCode (hm : r.mode = .code .outside) :
    Continues rest (r.step c rest) := by
  have hstep : r.step c rest = r.stepCode c rest := by rw [Reader.step, hm]
  have hout : ∀ q, Literal.outside = .within q ∨ Literal.outside = .escaped q →
      isQuote q = true := by
    intro q hq
    rcases hq with hq | hq <;> cases hq
  unfold Reader.stepCode at hstep
  by_cases hq : isQuote c = true
  · rw [if_pos hq] at hstep
    refine h.keep_busy (l := .within c) hstep rfl rfl ?_ fun pending hp => ?_
    · rintro q (hqc | hqc)
      · rwa [← Literal.within.inj hqc]
      · cases hqc
    · cases congrArg Reader.mode hp
  rw [if_neg hq] at hstep
  by_cases ho : c = '('
  · rw [if_pos ho] at hstep
    exact h.keep_busy hstep rfl hm hout fun pending hp => by cases congrArg Reader.parens hp
  rw [if_neg ho] at hstep
  by_cases hc : c = ')'
  · rw [if_pos hc] at hstep
    subst hc
    exact h.keep_visible hstep rfl hm (by decide) (by decide)
  rw [if_neg hc] at hstep
  by_cases hparens : r.parens > 0
  · rw [if_pos hparens] at hstep
    refine h.keep_busy hstep rfl hm hout fun pending hp => ?_
    have hzero : r.parens = 0 := congrArg Reader.parens hp
    omega
  rw [if_neg hparens] at hstep
  by_cases hinits : r.initializers > 0
  · rw [if_pos hinits] at hstep
    split at hstep
    · exact h.keep_busy hstep rfl hm hout fun pending hp => by
        cases congrArg Reader.initializers hp
    split at hstep
    · rename_i hne hclose
      subst hclose
      exact h.keep_visible hstep rfl hm (by decide) hne
    · refine h.keep_busy hstep rfl hm hout fun pending hp => ?_
      have hzero : r.initializers = 0 := congrArg Reader.initializers hp
      omega
  rw [if_neg hinits] at hstep
  have hr : r = Reader.between r.pending := by
    have hidle : r.parens = 0 ∧ r.initializers = 0 := by omega
    obtain ⟨mode, parens, initializers, pending⟩ := r
    obtain ⟨rfl, rfl⟩ := hidle
    rw [show mode = .code .outside from hm]
    rfl
  exact h.step_between hr hstep

/-- in a literal nothing is cut, and the quote that closes it is no brace -/
theorem Reader.Tracks.stepLiteral {l : Literal} (hm : r.mode = .code l) (hl : l ≠ .outside) :
    Continues rest (r.step c rest) := by
  have hstep : r.step c rest = ({ r.keep c with mode := .code (l.next c) }, []) := by
    cases l with
    | outside => exact absurd rfl hl
    | within q => rw [Reader.step, hm]
    | escaped q => rw [Reader.step, hm]
  -- the literal goes on
  have hwithin : ∀ q l', isQuote q = true → l.next c = l' → l' = .within q ∨ l' = .escaped q →
      Continues rest (r.step c rest) := by
    intro q l' hq hnext hl'
    rw [hnext] at hstep
    refine h.keep_busy hstep rfl rfl ?_ fun pending hp => ?_
    · intro q' hq'
      rcases hl' with rfl | rfl <;> rcases hq' with hq' | hq' <;> cases hq' <;> exact hq
    · have hmode : l' = .outside := Mode.code.inj (congrArg Reader.mode hp)
      rcases hl' with rfl | rfl <;> cases hmode
  cases l with
  | outside => exact absurd rfl hl
  | escaped q => exact hwithin q _ (h.quotes q (.inr hm)) rfl (.inl rfl)
  | within q =>
    have hq := h.quotes q (.inl hm)
    by_cases hb : c = '\\'
    · exact hwithin q _ hq (by rw [Literal.next, if_pos hb]) (.inr rfl)
    by_cases hc : c = q
    · rw [Literal.next, if_neg hb, if_pos hc] at hstep
      rw [← hc] at hq
      have hquote : c = '"' ∨ c = '\'' := by simpa [isQuote] using hq
      refine h.keep_visible hstep rfl rfl ?_ ?_
      · rcases hquote with rfl | rfl <;> decide
      · rcases hquote with rfl | rfl <;> decide
    · exact hwithin q _ hq (by rw [Literal.next, if_neg hb, if_neg hc]) (.inl rfl)

/-- a blank before the end of an empty pair, or before the semicolon of a closing brace -/
theorem Reader.Tracks.keep_blank (hstep : r.step c rest = (r.keep c, [])) (hc : isBlank c = true)
    (hm : r.mode = .emptyPair ∨ r.mode = .closer) : Continues rest (r.step c rest) := by
  have hgap : allBlank [c] = true := by simp [allBlank, hc]
  have hnext : nextVisible (c :: rest) = nextVisible rest := nextVisible_blank_append hgap rest
  rw [hstep]
  refine ⟨⟨h.reads_keep hstep rfl, h.quotes, ?_, ?_, ?_⟩, fun seg hseg => by cases hseg⟩
  · intro he
    rw [← hnext]
    exact h.emptyPair he
  · intro hcl
    rw [← hnext]
    exact h.closer hcl
  · intro pending hp
    have hmode : r.mode = .code .outside := congrArg Reader.mode hp
    rw [hmode] at hm
    rcases hm with hm | hm <;> cases hm

/-- **one more character** -/
theorem Reader.Tracks.step : Continues rest (r.step c rest) := by
  -- in front of `d`, another character is a blank
  have hblank : ∀ d, nextVisible (c :: rest) = some d → c ≠ d → isBlank c = true := by
    intro d hd hne
    by_contra hv
    rw [Bool.not_eq_true] at hv
    rw [nextVisible_cons_of_visible hv] at hd
    exact hne (Option.some.inj hd)
  cases hm : r.mode with
  | code l =>
    by_cases hl : l = .outside
    · subst hl
      exact h.stepCode hm
    · exact h.stepLiteral hm hl
  | emptyPair =>
    obtain ⟨hparens, hinits, hnext⟩ := h.emptyPair hm
    have hstep : r.step c rest = if c = '}' then
        if nextVisible rest = some ';' then ({ r.keep c with mode := .code .outside }, [])
        else ({ r.keep c with mode := .code .outside } : Reader).cut
        else (r.keep c, []) := by
      rw [Reader.step, hm]
    by_cases hc : c = '}'
    · subst hc
      rw [if_pos rfl] at hstep
      split at hstep
      · exact h.keep_visible hstep rfl rfl (by decide) (by decide)
      · rename_i hsemi
        refine h.end_of_statement ⟨hparens, hinits⟩ (by decide) ?_ (fun hcolon => by cases hcolon)
          hstep
        intro e he hbrittle
        have hend : e = ';' := by simpa [mem_brittleSeams] using hbrittle
        exact hsemi (hend ▸ he)
    · rw [if_neg hc] at hstep
      exact h.keep_blank hstep (hblank '}' hnext hc) (.inl hm)
  | closer =>
    obtain ⟨hparens, hinits, hnext⟩ := h.closer hm
    have hstep : r.step c rest = if c = ';' then
        ({ r.keep c with mode := .code .outside } : Reader).cut else (r.keep c, []) := by
      rw [Reader.step, hm]
    by_cases hc : c = ';'
    · subst hc
      rw [if_pos rfl] at hstep
      exact h.end_of_statement ⟨hparens, hinits⟩ (by decide) (fun e _ => by simp [mem_brittleSeams])
        (fun hcolon => by cases hcolon) hstep
    · rw [if_neg hc] at hstep
      exact h.keep_blank hstep (hblank ';' hnext hc) (.inr hm)

end

/-! ## a line -/

theorem Reader.Tracks.pieces {r : Reader} {t : Text} (h : r.Tracks t) :
    ∀ seg ∈ r.pieces t, segments seg = [seg] := by
  induction t generalizing r with
  | nil =>
    intro seg hseg
    rw [Reader.pieces_nil] at hseg
    obtain ⟨rfl, hone⟩ := mem_segment hseg
    have hread : Reader.fresh.readAll r.pending.reverse = (r, []) := by
      rw [← Reader.read_nil_ahead]
      exact h.reads
    rw [segments_trim, segments_eq, Reader.pieces, hread, List.nil_append]
    exact hone
  | cons c t ih =>
    intro seg hseg
    rw [Reader.pieces_cons] at hseg
    rcases List.mem_append.1 hseg with hseg | hseg
    · exact h.step.atomic seg hseg
    · exact ih h.step.tracks seg hseg

/-- **a piece of a line is one piece by itself** -/
theorem segments_of_mem_segments {line seg : Text} (h : seg ∈ segments line) :
    segments seg = [seg] :=
  (Reader.tracks_fresh line).pieces seg h

/-! ## headers without their bodies -/

/-- a bare `else`, or a control header that ends with its condition -/
def isBareHeader (t : Text) : Bool :=
  t == "else".toList ||
    opensCondition t && closingParen? t (t.idxOf '(') == some (t.length - 1)

theorem ConditionLead.isBareHeader_eq {lead g : Text} (hl : ConditionLead lead)
    (hg : isBalanced 0 .outside g = true) : isBareHeader (lead ++ '(' :: (g ++ [')'])) = true := by
  have hidx : (lead ++ '(' :: (g ++ [')'])).idxOf '(' = lead.length := by
    rw [List.idxOf_append, if_neg hl.no_parenthesis, List.idxOf_cons_self, Nat.zero_add]
  have hlength : (lead ++ '(' :: (g ++ [')'])).length - 1 = lead.length + (g.length + 1) := by
    simp
  have hopen : opensCondition (lead ++ '(' :: (g ++ [')'])) = true :=
    opensCondition_iff.2 ⟨lead, _, hl, rfl⟩
  rw [isBareHeader, hopen, hidx, closingParen?_of_group hg, hlength]
  simp

theorem IsKept.segments_eq {t : Text} (h : IsKept t) (ht : IsTrimmed t) : segments t = [t] := by
  have hread : Reader.fresh.readAll t = (Reader.between t.reverse, []) := by
    have hkept := h [] []
    rwa [Reader.read_nil_ahead, List.append_nil] at hkept
  have hseg := segment_reverse ht.trimmed ht.nonempty
  rw [CodeChart.segments_eq, Reader.pieces, hread, List.nil_append]
  exact hseg

theorem ConditionLead.isTrimmed {lead : Text} (hl : ConditionLead lead) (g : Text) :
    IsTrimmed (lead ++ '(' :: (g ++ [')'])) := by
  obtain ⟨c, r, rfl, hc⟩ := hl.visible
  rw [isTrimmed_iff]
  refine ⟨⟨c, rfl, hc⟩, ')', ?_, by decide⟩
  rw [← List.cons_append, ← List.append_assoc]
  exact List.getLast?_concat

theorem ConditionLead.splitLine_eq {lead g rest : Text} (hl : ConditionLead lead)
    (hg : isBalanced 0 .outside g = true) (hn : '\n' ∉ lead ++ '(' :: (g ++ ')' :: rest))
    (he : elseBody? (lead ++ '(' :: (g ++ ')' :: rest)) = none) :
    splitLine (lead ++ '(' :: (g ++ [')'])) = [lead ++ '(' :: (g ++ [')'])] := by
  rw [splitLine, IsKept.segments_eq (hl.isLeadIn hg rfl).kept (hl.isTrimmed g),
    List.flatMap_singleton, hl.peelHeaders_eq hg hn he]

/-- what stands directly behind a bare header is no label -/
def LabelFree (ps : List Text) : Prop :=
  ps.IsChain fun s s' => isBareHeader s = true → startsLabel s' = false

/-- then the body behind it is none -/
theorem LabelFree.body {header body : Text} (hb : isBareHeader header = true)
    (h : LabelFree (header :: peelHeaders body)) : startsLabel body = false := by
  by_contra hlabel
  rw [Bool.not_eq_false] at hlabel
  rw [peelHeaders_of_label hlabel] at h
  have hfree := h.rel hb
  rw [hlabel] at hfree
  cases hfree

/-- peeling takes a piece apart into statements that are not cut again -/
theorem splitLine_of_mem_peelHeaders {t : Text} (ht : IsTrimmed t) (hn : '\n' ∉ t)
    (hseg : segments t = [t]) (hfree : LabelFree (peelHeaders t)) :
    ∀ p ∈ peelHeaders t, splitLine p = [p] := by
  induction t using peelHeaders.induct with
  | case1 t body h ih =>
    have hcovers := elseBody?_covers ht h
    rw [peelHeaders_of_else h] at hfree ⊢
    obtain ⟨gap, hgap, hne, hbody, rfl⟩ := (elseBody?_eq_some_iff hn).1 h
    have htrimmed : IsTrimmed body := hcovers.isTrimmed (by simp)
    have hlabel : startsLabel (trimLeft body) = false := by
      rw [hbody.start]
      exact hfree.body (by decide)
    rw [← List.append_assoc] at hseg hn
    intro p hp
    rcases List.mem_cons.1 hp with rfl | hp
    · decide +kernel
    · exact ih htrimmed (fun hm => hn (List.mem_append_right _ hm))
        ((isLeadIn_else hgap hne).segments_body hlabel htrimmed hseg)
        hfree.tail p hp
  | case2 t he header body h ih =>
    have hcovers := conditionBody?_covers ht h
    rw [peelHeaders_of_condition he h] at hfree ⊢
    obtain ⟨lead, g, rest, hlead, hg, _, rfl, rfl, rfl⟩ := conditionBody?_eq_some h
    have hbody : IsTrimmed (trim rest) := hcovers.isTrimmed (by simp)
    have hlabel : startsLabel (trimLeft (trim rest)) = false := by
      rw [hbody.trimLeft_eq]
      exact hfree.body (hlead.isBareHeader_eq hg)
    obtain ⟨gap, hgap, hrest⟩ := exists_trimLeft rest
    have hend : trim rest = trimLeft rest := by
      rw [header_append] at ht
      exact ht.trim_eq_trimLeft hbody.nonempty
    rw [hend] at hbody hlabel ih hfree ⊢
    have hsplit : lead ++ '(' :: (g ++ ')' :: rest)
        = lead ++ '(' :: (g ++ ')' :: gap) ++ trimLeft rest := by
      conv_lhs => rw [hrest]
      simp
    intro p hp
    rcases List.mem_cons.1 hp with rfl | hp
    · exact hlead.splitLine_eq hg hn he
    · rw [hsplit] at hseg hn
      exact ih hbody (fun hm => hn (List.mem_append_right _ hm))
        ((hlead.isLeadIn hg hgap).segments_body hlabel hbody hseg)
        hfree.tail p hp
  | case3 t he h =>
    rw [peelHeaders_of_none he h]
    intro p hp
    rw [List.mem_singleton.1 hp, splitLine, hseg, List.flatMap_singleton, peelHeaders_of_none he h]

/-! ## a source text -/

theorem infix_flatMap {α β : Type} {f : α → List β} {l : List α} {x : α} (h : x ∈ l) :
    f x <:+: l.flatMap f := by
  obtain ⟨before, after, rfl⟩ := List.mem_iff_append.1 h
  rw [List.flatMap_append, List.flatMap_cons]
  exact ⟨before.flatMap f, after.flatMap f, List.append_assoc _ _ _⟩

/-- the statements of one line -/
theorem splitLine_of_mem {line : Text} (hn : '\n' ∉ line) (hfree : LabelFree (splitLine line)) :
    ∀ p ∈ splitLine line, splitLine p = [p] := by
  intro p hp
  obtain ⟨seg, hseg, hpseg⟩ := List.mem_flatMap.1 hp
  have hcovers := segments_covers line
  have hpeeled := List.IsChain.infix hfree (infix_flatMap hseg)
  exact splitLine_of_mem_peelHeaders (hcovers.isTrimmed hseg)
    (fun hm => hn ((hcovers.isInfix hseg).subset hm)) (segments_of_mem_segments hseg) hpeeled p
    hpseg

/-- **parsing the parsed text changes nothing**: if no statement opens a block comment, and none
that follows a bare header on its line is a label, then every statement is one statement by itself,
and the normalized text has the same statements, is its own normalized text and has the same
flowchart but for the line numbers -/
theorem normalized_normalized {src : Text}
    (hblock : ∀ s ∈ statements src, ¬ commentOpener <:+: s.text)
    (hlabel : (statements src).IsChain fun s s' =>
      s.line = s'.line → isBareHeader s.text = true → startsLabel s'.text = false) :
    (statements (normalized src)).map Statement.text = (statements src).map Statement.text ∧
    normalized (normalized src) = normalized src ∧
    (∀ s ∈ statements src, splitLine s.text = [s.text]) ∧
    (Builder.ofSource (normalized src)).withoutLines = (Builder.ofSource src).withoutLines := by
  have hsingle : ∀ s ∈ statements src, splitLine s.text = [s.text] := by
    intro s hs
    obtain ⟨l, hl, hsl⟩ := List.mem_flatMap.1 hs
    have hmap := l.map_text_statements
    have hline : ∀ s ∈ l.statements, s.line = l.line := by
      intro s hs
      obtain ⟨t, _, rfl⟩ := List.mem_map.1 hs
      rfl
    have hfree : LabelFree (l.statements.map Statement.text) := by
      rw [LabelFree, List.isChain_map]
      have hchain := List.IsChain.infix hlabel (infix_flatMap hl)
      refine hchain.imp_of_mem_imp fun s s' hs hs' h => h ?_
      rw [hline s hs, hline s' hs']
    have hprefix := cutLineComment_prefix l.text
    have hcut : trim (cutLineComment l.text) ⊆ l.text :=
      List.Subset.trans (trim_isInfix _).subset hprefix.subset
    rw [hmap] at hfree
    refine splitLine_of_mem (fun hm => newline_not_mem_logicalLine hl (hcut hm)) hfree s.text ?_
    rw [← hmap]
    exact List.mem_map_of_mem hsl
  have hwhole : ∀ t ∈ (statements src).map Statement.text, IsWholeLine t := by
    intro t ht
    obtain ⟨s, hs, rfl⟩ := List.mem_map.1 ht
    obtain ⟨_, htrim, hn, hslash⟩ := (statements_cover src).2.2 s hs
    exact ⟨hn, Bool.eq_false_iff.2 fun h => hblock s hs (hasPair_iff.1 h),
      Bool.eq_false_iff.2 fun h => hslash (hasPair_iff.1 h), htrim, hsingle s hs⟩
  have htexts : (statements (normalized src)).map Statement.text
      = (statements src).map Statement.text := by
    rw [normalized, statements_of_lines hwhole, map_text_numbered]
  exact ⟨htexts, by rw [normalized, htexts, normalized], hsingle,
    Builder.withoutLines_ofSource_congr htexts⟩

/-- a label behind a header that has its block, and bare headers in front of calls -/
theorem normalized_normalized_switch :
    let src := "switch (x) \x7b\n case 1: if (a) b(); else c(); \x7d".toList
    (statements (normalized src)).map Statement.text = (statements src).map Statement.text ∧
    normalized (normalized src) = normalized src ∧
    (∀ s ∈ statements src, splitLine s.text = [s.text]) ∧
    (Builder.ofSource (normalized src)).withoutLines = (Builder.ofSource src).withoutLines :=
  normalized_normalized (by decide +kernel) (by decide +kernel)

end CodeChart
