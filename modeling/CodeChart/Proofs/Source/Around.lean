import CodeChart.Proofs.Source.Whole
import CodeChart.Proofs.Text.Ends

/-!
# What a reader sees around a character

A decision to cut looks ahead to the next visible character, and behind to the pending text.  Two
runs that see the same there cut the same.

* `LooksAlike`          two texts that a reader cannot tell apart when they are ahead;
                        `Reader.read_congr`: what is read in front of them is the same;
* `Reader.pieces`       the pieces of a text read in some state;
* `SameBehind`          two texts behind the pending one that the next character is treated alike
                        in front of;
* `Reader.pieces_behind`   then the pieces are the same up to the first, which begins with these
                        texts;
* `segments_trim`       blanks around a line change nothing.
-/

namespace CodeChart

/-! ## the text ahead -/

structure LooksAlike (a b : Text) : Prop where
  visible : nextVisible a = nextVisible b
  colon : a.head? = some ':' ↔ b.head? = some ':'

theorem LooksAlike.of_visible {c : Char} (h : isBlank c = false) (a b : Text) :
    LooksAlike (c :: a) (c :: b) :=
  ⟨by rw [nextVisible_cons_of_visible h, nextVisible_cons_of_visible h], Iff.rfl⟩

theorem LooksAlike.of_blank {gap : Text} (h : allBlank gap = true) : LooksAlike gap [] := by
  refine ⟨by rw [nextVisible_eq_none_iff.2 h]; rfl, ?_⟩
  cases gap with
  | nil => exact Iff.rfl
  | cons c gap =>
    have hc : isBlank c = true := List.all_eq_true.1 h c List.mem_cons_self
    constructor
    · intro hcolon
      rw [Option.some.inj hcolon] at hc
      exact absurd hc (by decide)
    · intro hnil
      cases hnil

theorem LooksAlike.append {a b : Text} (h : LooksAlike a b) (t : Text) :
    LooksAlike (t ++ a) (t ++ b) := by
  refine ⟨by rw [nextVisible_append, nextVisible_append, h.visible], ?_⟩
  cases t with
  | nil => exact h.colon
  | cons c t => exact Iff.rfl

theorem endsLabel_congr {a b : Text} (h : LooksAlike a b) (pending : Text) :
    endsLabel pending a = endsLabel pending b := by
  have hcolon : (a.head? != some ':') = (b.head? != some ':') := by
    rw [Bool.eq_iff_iff, bne_iff_ne, bne_iff_ne]
    exact not_congr h.colon
  rw [endsLabel, endsLabel, hcolon, h.visible]

theorem Reader.step_congr {a b : Text} (h : LooksAlike a b) (r : Reader) (c : Char) :
    r.step c a = r.step c b := by
  have hopen : r.openBrace a = r.openBrace b := by
    rw [Reader.openBrace, Reader.openBrace, h.visible]
  have hclose : r.closeBrace a = r.closeBrace b := by
    rw [Reader.closeBrace, Reader.closeBrace, h.visible]
  have hcode : r.stepCode c a = r.stepCode c b := by
    rw [Reader.stepCode, Reader.stepCode, hopen, hclose, endsLabel_congr h]
  rw [Reader.step, Reader.step, hcode, h.visible]

theorem Reader.read_congr {a b : Text} (h : LooksAlike a b) (r : Reader) (t : Text) :
    r.read t a = r.read t b := by
  induction t generalizing r with
  | nil => rfl
  | cons c t ih =>
    rw [Reader.read_cons, Reader.read_cons, Reader.step_congr (h.append t), ih]

theorem Reader.read_nil_ahead (r : Reader) (t : Text) : r.read t [] = r.readAll t := by
  induction t generalizing r with
  | nil => rfl
  | cons c t ih => rw [Reader.read_cons, Reader.readAll_cons, List.append_nil, ih]

/-! ## the pieces of a text -/

/-- what is cut off while reading, and what is pending in the end -/
def Reader.pieces (r : Reader) (t : Text) : List Text :=
  (r.readAll t).2 ++ segment (r.readAll t).1.pending

theorem segments_eq (line : Text) : segments line = Reader.fresh.pieces line := rfl

theorem Reader.pieces_nil (r : Reader) : r.pieces [] = segment r.pending := rfl

theorem Reader.pieces_cons (r : Reader) (c : Char) (t : Text) :
    r.pieces (c :: t) = (r.step c t).2 ++ (r.step c t).1.pieces t := by
  rw [Reader.pieces, Reader.readAll_cons, List.append_assoc]
  rfl

theorem Reader.pieces_append (r : Reader) (a b : Text) :
    r.pieces (a ++ b) = (r.read a b).2 ++ (r.read a b).1.pieces b := by
  rw [Reader.pieces, Reader.readAll_append, List.append_assoc]
  rfl

theorem segment_congr {p q : Text} (h : trim p.reverse = trim q.reverse) :
    segment p = segment q := by
  simp only [segment, h]

theorem segment_of_allBlank {p : Text} (h : allBlank p = true) : segment p = [] := by
  have hrev : allBlank p.reverse = true := by rwa [allBlank, List.all_reverse]
  simp only [segment, trim_of_allBlank hrev]
  rfl

theorem segment_of_visible {p : Text} (h : trim p.reverse ≠ []) :
    segment p = [trim p.reverse] := by
  simp only [segment]
  exact if_neg fun he => h (List.isEmpty_iff.1 he)

theorem segment_blank_append {gap : Text} (h : allBlank gap = true) (p : Text) :
    segment (gap ++ p) = segment p := by
  refine segment_congr ?_
  rw [List.reverse_append, trim_append_blank (by rwa [allBlank, List.all_reverse])]

theorem segment_append_blank {gap : Text} (h : allBlank gap = true) (p : Text) :
    segment (p ++ gap) = segment p := by
  refine segment_congr ?_
  rw [List.reverse_append, trim_blank_append (by rwa [allBlank, List.all_reverse])]

/-! ## the text behind -/

/-- `r` when `u` stands behind its pending text -/
def Reader.behind (r : Reader) (u : Text) : Reader := { r with pending := r.pending ++ u }

/-- for the character `c`, it makes no difference whether `u` or `v` stands behind -/
structure SameBehind (u v pending : Text) (c : Char) : Prop where
  initializer : opensInitializer (pending ++ u) = opensInitializer (pending ++ v)
  label : c = ':' → ∀ rest, endsLabel (pending ++ u) rest = endsLabel (pending ++ v) rest

/-- two results of one character: nothing is cut off, or the text behind goes with the first piece
and is gone -/
inductive Parted (u v : Text) (c : Char) (pending : Text) :
    Reader × List Text → Reader × List Text → Prop
  | keep (r : Reader) (h : r.pending = c :: pending) :
      Parted u v c pending (r.behind u, []) (r.behind v, [])
  | cut (r : Reader) (more : List Text) :
      Parted u v c pending (r, segment (c :: pending ++ u) ++ more)
        (r, segment (c :: pending ++ v) ++ more)
  | before (r : Reader) (more : List Text) :
      Parted u v c pending (r, segment (pending ++ u) ++ more) (r, segment (pending ++ v) ++ more)

section
variable {u v : Text} {c : Char} (r : Reader)

theorem Parted.kept {mode : Mode} {parens initializers : Nat} :
    Parted u v c r.pending
      (⟨mode, parens, initializers, c :: (r.pending ++ u)⟩, [])
      (⟨mode, parens, initializers, c :: (r.pending ++ v)⟩, []) :=
  .keep ⟨mode, parens, initializers, c :: r.pending⟩ rfl

theorem Parted.ended {mode : Mode} {parens initializers : Nat} :
    Parted u v c r.pending
      (⟨mode, parens, initializers, []⟩, segment (c :: (r.pending ++ u)))
      (⟨mode, parens, initializers, []⟩, segment (c :: (r.pending ++ v))) := by
  have h := @Parted.cut u v c r.pending ⟨mode, parens, initializers, []⟩ []
  rwa [List.append_nil, List.append_nil] at h

theorem Reader.openBrace_behind (h : SameBehind u v r.pending '{') (rest : Text) :
    Parted u v '{' r.pending ((r.behind u).openBrace rest) ((r.behind v).openBrace rest) := by
  have hinit : opensInitializer (r.behind u).pending = opensInitializer (r.behind v).pending :=
    h.initializer
  unfold Reader.openBrace
  rw [hinit]
  split
  · exact .kept r
  · split
    · exact .kept r
    · exact .ended r

theorem Reader.closeBrace_behind (rest : Text) :
    Parted u v '}' r.pending ((r.behind u).closeBrace rest) ((r.behind v).closeBrace rest) := by
  simp only [Reader.closeBrace]
  split
  · have hb := @Parted.before u v '}' r.pending ⟨.closer, r.parens, r.initializers, ['}']⟩ []
    rwa [List.append_nil, List.append_nil] at hb
  · exact .before ⟨r.mode, r.parens, r.initializers, []⟩ (segment ['}'])

theorem Reader.stepCode_behind (h : SameBehind u v r.pending c) (rest : Text) :
    Parted u v c r.pending ((r.behind u).stepCode c rest) ((r.behind v).stepCode c rest) := by
  have hp : (r.behind u).parens = r.parens ∧ (r.behind v).parens = r.parens := ⟨rfl, rfl⟩
  have hi : (r.behind u).initializers = r.initializers ∧
      (r.behind v).initializers = r.initializers := ⟨rfl, rfl⟩
  unfold Reader.stepCode
  rw [hp.1, hp.2, hi.1, hi.2]
  by_cases hq : isQuote c = true
  · rw [if_pos hq, if_pos hq]
    exact .kept r
  rw [if_neg hq, if_neg hq]
  by_cases ho : c = '('
  · rw [if_pos ho, if_pos ho]
    exact .kept r
  rw [if_neg ho, if_neg ho]
  by_cases hc : c = ')'
  · rw [if_pos hc, if_pos hc]
    exact .kept r
  rw [if_neg hc, if_neg hc]
  by_cases hparens : r.parens > 0
  · rw [if_pos hparens, if_pos hparens]
    exact .kept r
  rw [if_neg hparens, if_neg hparens]
  by_cases hinits : r.initializers > 0
  · rw [if_pos hinits, if_pos hinits]
    split
    · exact .kept r
    · split <;> exact .kept r
  rw [if_neg hinits, if_neg hinits]
  by_cases hl : c = '{'
  · subst hl
    rw [if_pos rfl, if_pos rfl]
    exact r.openBrace_behind h rest
  rw [if_neg hl, if_neg hl]
  by_cases hr : c = '}'
  · subst hr
    rw [if_pos rfl, if_pos rfl]
    exact r.closeBrace_behind rest
  rw [if_neg hr, if_neg hr]
  by_cases hs : c = ';'
  · rw [if_pos hs, if_pos hs]
    exact .ended r
  rw [if_neg hs, if_neg hs]
  by_cases hk : c = ':'
  · have hlabel : endsLabel (r.behind u).pending rest = endsLabel (r.behind v).pending rest :=
      h.label hk rest
    rw [hlabel]
    split
    · exact .ended r
    · exact .kept r
  · rw [if_neg (fun hcolon => hk hcolon.1), if_neg (fun hcolon => hk hcolon.1)]
    exact .kept r

theorem Reader.step_behind (h : SameBehind u v r.pending c) (rest : Text) :
    Parted u v c r.pending ((r.behind u).step c rest) ((r.behind v).step c rest) := by
  have hm : (r.behind u).mode = r.mode ∧ (r.behind v).mode = r.mode := ⟨rfl, rfl⟩
  unfold Reader.step
  rw [hm.1, hm.2]
  split
  · exact r.stepCode_behind h rest
  · exact .kept r
  · split
    · simp only
      split
      · exact .kept r
      · exact .ended r
    · exact .kept r
  · split
    · exact .ended r
    · exact .kept r

end

/-- **the text behind goes with the first piece**, as long as it makes no difference -/
theorem Reader.pieces_behind {u v t : Text} (r : Reader)
    (h : ∀ s c, s ++ [c] <+: t → SameBehind u v (s.reverse ++ r.pending) c) :
    ∃ s more, s <+: t ∧
      (r.behind u).pieces t = segment (s.reverse ++ r.pending ++ u) ++ more ∧
      (r.behind v).pieces t = segment (s.reverse ++ r.pending ++ v) ++ more := by
  induction t generalizing r with
  | nil =>
    refine ⟨[], [], List.prefix_refl _, ?_, ?_⟩
    · rw [List.append_nil]
      rfl
    · rw [List.append_nil]
      rfl
  | cons c t ih =>
    have hstep := r.step_behind (h [] c (List.prefix_append [c] t)) t
    rw [Reader.pieces_cons, Reader.pieces_cons]
    generalize (r.behind u).step c t = x at hstep
    generalize (r.behind v).step c t = y at hstep
    cases hstep with
    | keep r' hr' =>
      obtain ⟨s, more, hs, hu, hv⟩ := ih r' (fun s d hsd => by
        have hd := h (c :: s) d ((List.prefix_cons_inj c).2 hsd)
        rw [List.reverse_cons, List.append_assoc] at hd
        rwa [hr'])
      refine ⟨c :: s, more, (List.prefix_cons_inj c).2 hs, ?_, ?_⟩
      · rw [hr'] at hu
        rw [List.reverse_cons, List.append_assoc _ [c]]
        exact hu
      · rw [hr'] at hv
        rw [List.reverse_cons, List.append_assoc _ [c]]
        exact hv
    | cut r' more =>
      exact ⟨[c], more ++ r'.pieces t, List.prefix_append [c] t, List.append_assoc _ _ _,
        List.append_assoc _ _ _⟩
    | before r' more =>
      exact ⟨[], more ++ r'.pieces t, List.nil_prefix, List.append_assoc _ _ _,
        List.append_assoc _ _ _⟩

/-! ## blanks -/

theorem isInert_of_isBlank {c : Char} (h : isBlank c = true) : isInert c = true := by
  have hne : ∀ d, isBlank d = false → (c == d) = false := by
    intro d hd
    refine beq_eq_false_iff_ne.2 ?_
    rintro rfl
    rw [h] at hd
    cases hd
  simp [isInert, isQuote, hne _ (show isBlank '"' = false by decide), hne '\'' (by decide),
    hne '(' (by decide), hne ')' (by decide), hne '{' (by decide), hne '}' (by decide),
    hne ';' (by decide), hne ':' (by decide)]

theorem isKept_of_allBlank {gap : Text} (h : allBlank gap = true) : IsKept gap :=
  isKept_of_inert fun c hc => isInert_of_isBlank (List.all_eq_true.1 h c hc)

/-- a blank ends nothing, whatever the state and whatever is ahead -/
theorem Reader.step_blank {c : Char} (h : isBlank c = true) (r : Reader) :
    ∃ mode, ∀ rest, r.step c rest = ({ r.keep c with mode := mode }, []) := by
  have hne : ∀ d, isBlank d = false → c ≠ d := by
    rintro d hd rfl
    rw [h] at hd
    cases hd
  have hq : isQuote c = false := by
    simp [isQuote, hne '"' (by decide), hne '\'' (by decide)]
  cases hm : r.mode with
  | code l =>
    cases l with
    | outside =>
      refine ⟨.code .outside, fun rest => ?_⟩
      have hparens := hne '(' (by decide)
      have hparens' := hne ')' (by decide)
      have hbrace := hne '{' (by decide)
      have hbrace' := hne '}' (by decide)
      have hsemi := hne ';' (by decide)
      have hcolon := hne ':' (by decide)
      simp only [Reader.step, hm, Reader.stepCode, hq, hparens, hparens', hbrace, hbrace', hsemi,
        hcolon, Bool.false_eq_true, false_and, if_false, ite_self, Reader.keep]
    | within q => exact ⟨_, fun rest => by rw [Reader.step, hm]⟩
    | escaped q => exact ⟨_, fun rest => by rw [Reader.step, hm]⟩
  | emptyPair =>
    refine ⟨.emptyPair, fun rest => ?_⟩
    simp only [Reader.step, hm, hne '}' (by decide), if_false, Reader.keep]
  | closer =>
    refine ⟨.closer, fun rest => ?_⟩
    simp only [Reader.step, hm, hne ';' (by decide), if_false, Reader.keep]

theorem Reader.read_blank {gap : Text} (h : allBlank gap = true) (r : Reader) :
    ∃ mode, ∀ after, r.read gap after
      = ({ r with mode := mode, pending := gap.reverse ++ r.pending }, []) := by
  induction gap generalizing r with
  | nil => exact ⟨r.mode, fun after => rfl⟩
  | cons c gap ih =>
    rw [allBlank, List.all_cons, Bool.and_eq_true] at h
    obtain ⟨mode, hstep⟩ := Reader.step_blank h.1 r
    obtain ⟨mode', hread⟩ := ih h.2 { r.keep c with mode := mode }
    refine ⟨mode', fun after => ?_⟩
    rw [Reader.read_cons, hstep, hread, List.reverse_cons, List.append_assoc]
    rfl

theorem Reader.pieces_append_blank {gap : Text} (h : allBlank gap = true) (r : Reader) (t : Text) :
    r.pieces (t ++ gap) = r.pieces t := by
  have hahead : r.read t gap = r.readAll t := by
    rw [Reader.read_congr (.of_blank h), Reader.read_nil_ahead]
  obtain ⟨mode, hgap⟩ := (r.readAll t).1.read_blank h
  have hlast : (r.readAll t).1.pieces gap = segment (r.readAll t).1.pending := by
    have hrev : allBlank gap.reverse = true := by rwa [allBlank, List.all_reverse]
    rw [Reader.pieces, ← Reader.read_nil_ahead, hgap, List.nil_append,
      segment_blank_append hrev]
  rw [Reader.pieces_append, hahead, hlast]
  rfl

theorem trim_append_colon (t : Text) : trim (t ++ [':']) = trimLeft t ++ [':'] :=
  trim_append_cons (by decide) t []

theorem sameBehind_blank {gap : Text} (h : allBlank gap = true) (pending : Text) (c : Char) :
    SameBehind gap [] pending c := by
  have hrev : allBlank gap.reverse = true := by rwa [allBlank, List.all_reverse]
  have hword : continuesWord gap = false := by
    cases gap with
    | nil => rfl
    | cons d gap => exact isWord_of_isBlank (List.all_eq_true.1 h d List.mem_cons_self)
  have hinit : opensInitializer gap = false := by
    rw [opensInitializer, trimLeft_of_allBlank h]
    decide
  refine ⟨by rw [opensInitializer_append hword hinit, List.append_nil], fun _ rest => ?_⟩
  have hhead : ((pending ++ gap).head? != some ':') = (pending.head? != some ':') := by
    cases pending with
    | nil =>
      rw [Bool.eq_iff_iff, bne_iff_ne, bne_iff_ne]
      exact not_congr (LooksAlike.of_blank h).colon
    | cons d pending => rfl
  rw [endsLabel, endsLabel, List.append_nil, hhead, List.reverse_cons, List.reverse_cons,
    trim_append_colon, trim_append_colon, List.reverse_append, trimLeft_blank_append hrev]

/-- blanks behind the pending text are trimmed off the first piece -/
theorem Reader.pieces_behind_blank {gap : Text} (h : allBlank gap = true) (r : Reader) (t : Text) :
    (r.behind gap).pieces t = r.pieces t := by
  have hr : r.behind [] = r := by
    show { r with pending := r.pending ++ [] } = r
    rw [List.append_nil]
  obtain ⟨s, more, _, hgap, hnil⟩ :=
    r.pieces_behind (t := t) fun s c _ => sameBehind_blank h (s.reverse ++ r.pending) c
  rw [hr] at hnil
  rw [hgap, hnil, segment_append_blank h, List.append_nil]

theorem segments_blank_append {gap : Text} (h : allBlank gap = true) (t : Text) :
    segments (gap ++ t) = segments t := by
  have hrev : allBlank gap.reverse = true := by rwa [allBlank, List.all_reverse]
  have hread : Reader.fresh.read gap t = (Reader.fresh.behind gap.reverse, []) := by
    have hkept := isKept_of_allBlank h [] t
    rwa [List.append_nil] at hkept
  rw [segments_eq, Reader.pieces_append, hread, Reader.pieces_behind_blank hrev, segments_eq]
  rfl

theorem segments_trim (t : Text) : segments (trim t) = segments t := by
  obtain ⟨before, after, hb, ha, ht⟩ := exists_trim t
  conv_rhs => rw [ht]
  rw [segments_blank_append hb, segments_eq, segments_eq, Reader.pieces_append_blank ha]

theorem splitLine_trim (t : Text) : splitLine (trim t) = splitLine t := by
  rw [splitLine, splitLine, segments_trim]

end CodeChart
