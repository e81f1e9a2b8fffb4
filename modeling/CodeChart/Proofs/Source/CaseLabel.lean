import CodeChart.Proofs.Source.Content
import CodeChart.Proofs.Source.Jump

/-!
# The colon of a case label

A line is cut at the colon of a case label by a reader that knows literals, parentheses and
initializer lists.  The value of a case is read up to the first colon that stands alone, whatever is
around it.

* `IsCutAtColon`          the texts that a line is cut into at the colon of a label;
* `IsInnerColon`          a colon in front of the last character that stands next to no other one;
* `beforeColon_prefix`, `beforeColon_of_outer`   what the value is read up to;
* `IsInnerColon.enclosed` in a case label, such a colon stands in a literal, in parentheses or in an
                          initializer list, since the line would be cut there otherwise;
* `caseValue_eq_iff`      the value is the text up to the colon of the label if and only if there is
                          no such colon.
-/

namespace CodeChart

/-! ## colons -/

/-- `s` is cut off `line` at a colon that ends a label -/
def IsCutAtColon (line s : Text) : Prop :=
  ∃ before after pending, line = before ++ ':' :: after ∧
    (Reader.fresh.read before (':' :: after)).1 = Reader.between pending ∧
    endsLabel pending after = true ∧ s = trim (':' :: pending).reverse

structure IsInnerColon (s before after : Text) : Prop where
  split : s = before ++ ':' :: after
  nonempty : after ≠ []
  left : before.getLast? ≠ some ':'
  right : after.head? ≠ some ':'

/-- the reader is in a literal, in parentheses or in an initializer list -/
def Reader.IsEnclosed (r : Reader) : Prop :=
  (∃ q, r.mode = .code (.within q) ∨ r.mode = .code (.escaped q)) ∨ 0 < r.parens ∨
    0 < r.initializers

/-! ## what the value is read up to -/

theorem beforeColon_cons {p : Text} {c : Char} {t : Text}
    (h : c = ':' → p.getLast? ≠ some ':' → t.head? = some ':') :
    beforeColon (p.getLast? == some ':') (c :: t)
      = c :: beforeColon ((p ++ [c]).getLast? == some ':') t := by
  have hlast : ((p ++ [c]).getLast? == some ':') = (c == ':') := by
    rw [List.getLast?_concat]
    rfl
  rw [beforeColon, hlast, if_neg]
  rintro ⟨hc, hp, ht⟩
  exact ht (h hc (beq_eq_false_iff_ne.1 hp))

theorem beforeColon_colon {p t : Text} (hp : p.getLast? ≠ some ':') (ht : t.head? ≠ some ':') :
    beforeColon (p.getLast? == some ':') (':' :: t) = [] := by
  rw [beforeColon, if_pos ⟨rfl, beq_eq_false_iff_ne.2 hp, ht⟩]

/-- no further than any colon that stands alone -/
theorem beforeColon_prefix {p x y : Text} (hx : (p ++ x).getLast? ≠ some ':')
    (hy : y.head? ≠ some ':') : beforeColon (p.getLast? == some ':') (x ++ ':' :: y) <+: x := by
  induction x generalizing p with
  | nil =>
    rw [List.append_nil] at hx
    rw [List.nil_append, beforeColon_colon hx hy]
  | cons c x ih =>
    by_cases hstop : c = ':' → p.getLast? ≠ some ':' → (x ++ ':' :: y).head? = some ':'
    · rw [List.cons_append, beforeColon_cons hstop, List.cons_prefix_cons]
      refine ⟨rfl, ih ?_⟩
      rwa [List.append_assoc]
    · push Not at hstop
      obtain ⟨rfl, hp, ht⟩ := hstop
      rw [List.cons_append, beforeColon_colon hp ht]
      exact List.nil_prefix

/-- up to the colon behind `u`, if none stands alone in front of it -/
theorem beforeColon_of_outer {p u y : Text} (hu : (p ++ u).getLast? ≠ some ':')
    (hy : y.head? ≠ some ':')
    (hno : ∀ a b, u = a ++ ':' :: b → (p ++ a).getLast? ≠ some ':' →
      (b ++ ':' :: y).head? = some ':') :
    beforeColon (p.getLast? == some ':') (u ++ ':' :: y) = u := by
  induction u generalizing p with
  | nil =>
    rw [List.append_nil] at hu
    exact beforeColon_colon hu hy
  | cons c u ih =>
    have hfirst : c = ':' → p.getLast? ≠ some ':' → (u ++ ':' :: y).head? = some ':' := by
      rintro rfl hp
      refine hno [] u rfl ?_
      rwa [List.append_nil]
    rw [List.cons_append, beforeColon_cons hfirst, ih]
    · rwa [List.append_assoc]
    · rintro a b rfl ha
      refine hno (c :: a) b rfl ?_
      rwa [List.append_assoc] at ha

/-! ## inside a piece -/

theorem allBlank_cons_of_visible {t : Text} (h : allBlank t = false) (c : Char) :
    allBlank (c :: t) = false := by
  rw [allBlank, List.all_cons, ← allBlank, h, Bool.and_false]

theorem segment_ne_nil {p : Text} (h : allBlank p = false) : segment p ≠ [] := by
  intro hnil
  have hcovers := segment_covers p
  rw [hnil] at hcovers
  cases hcovers with
  | nil hblank =>
    rw [allBlank, List.all_reverse] at hblank
    rw [allBlank, hblank] at h
    cases h

theorem Reader.pieces_ne_nil {t : Text} (h : allBlank t = false) (r : Reader) :
    r.pieces t ≠ [] := by
  intro hnil
  have hcovers : Covers (r.pieces t) (r.pending.reverse ++ t) := r.readAll_covers t
  rw [hnil] at hcovers
  cases hcovers with
  | nil hblank =>
    rw [allBlank, List.all_append, Bool.and_eq_true] at hblank
    rw [allBlank, hblank.2] at h
    cases h

theorem PendingStep.kept {pending pending' : Text} {c : Char} {done : List Text}
    (h : PendingStep pending c pending' done) (hdone : done = [])
    (hv : allBlank pending = false) : pending' = c :: pending := by
  have hmore := allBlank_cons_of_visible hv c
  cases h with
  | keep => rfl
  | cut => exact absurd hdone (segment_ne_nil hmore)
  | part => exact absurd hdone (segment_ne_nil hv)
  | isolate => exact absurd (List.append_eq_nil_iff.1 hdone).1 (segment_ne_nil hv)

/-- where nothing is cut off, everything is pending -/
theorem Reader.read_pending {r : Reader} {a b : Text} (hv : allBlank r.pending = false)
    (h : (r.read a b).2 = []) : (r.read a b).1.pending = a.reverse ++ r.pending := by
  induction a generalizing r with
  | nil => rfl
  | cons c a ih =>
    rw [Reader.read_cons] at h
    obtain ⟨hfirst, hmore⟩ := List.append_eq_nil_iff.1 h
    have hpending := (r.pendingStep_step c (a ++ b)).kept hfirst hv
    have hvisible : allBlank (r.step c (a ++ b)).1.pending = false := by
      rw [hpending]
      exact allBlank_cons_of_visible hv c
    rw [Reader.read_cons]
    show ((r.step c (a ++ b)).1.read a b).1.pending = _
    rw [ih hvisible hmore, hpending, List.reverse_cons, List.append_assoc]
    rfl

/-- nothing is cut off inside a piece -/
theorem Reader.read_of_piece {a b : Text} (h : segments (a ++ b) = [a ++ b])
    (hb : allBlank b = false) :
    (Reader.fresh.read a b).2 = [] ∧ (Reader.fresh.read a b).1.pieces b = [a ++ b] := by
  rw [segments_eq, Reader.pieces_append] at h
  cases hdone : (Reader.fresh.read a b).2 with
  | nil =>
    rw [hdone] at h
    exact ⟨rfl, h⟩
  | cons piece more =>
    rw [hdone] at h
    obtain ⟨_, hrest⟩ := List.cons.inj h
    exact absurd (List.append_eq_nil_iff.1 hrest).2 (Reader.pieces_ne_nil hb _)

theorem Reader.Tracks.enclosed_or_between {r : Reader} {c : Char} {rest : Text}
    (h : r.Tracks (c :: rest)) (hv : isBlank c = false) (hbrace : c ≠ '}') (hsemi : c ≠ ';') :
    r.IsEnclosed ∨ r = Reader.between r.pending := by
  have hnext : nextVisible (c :: rest) = some c := nextVisible_cons_of_visible hv rest
  obtain ⟨mode, parens, initializers, pending⟩ := r
  cases mode with
  | emptyPair =>
    obtain ⟨_, _, hclose⟩ := h.emptyPair rfl
    rw [hnext] at hclose
    exact absurd (Option.some.inj hclose) hbrace
  | closer =>
    obtain ⟨_, _, hend⟩ := h.closer rfl
    rw [hnext] at hend
    exact absurd (Option.some.inj hend) hsemi
  | code l =>
    cases l with
    | within q => exact .inl (.inl ⟨q, .inl rfl⟩)
    | escaped q => exact .inl (.inl ⟨q, .inr rfl⟩)
    | outside =>
      rcases Nat.eq_zero_or_pos parens with rfl | hparens
      · rcases Nat.eq_zero_or_pos initializers with rfl | hinits
        · exact .inr rfl
        · exact .inl (.inr (.inr hinits))
      · exact .inl (.inr (.inl hparens))

/-! ## a block in a piece -/

theorem Reader.pieces_semicolon {rest : Text} (h : nextVisible rest = some ';') (pending : Text) :
    ∃ front more, (Reader.between pending).pieces rest = segment (';' :: front) ++ more := by
  obtain ⟨gap, behind, hgap, rfl⟩ := exists_nextVisible h
  have hread := isKept_of_allBlank hgap pending (';' :: behind)
  rw [Reader.pieces_append, hread, List.nil_append, Reader.pieces_cons]
  exact ⟨gap.reverse ++ pending, _, rfl⟩

/-- an empty pair of braces stays together, and with it the semicolon behind it -/
theorem Reader.pieces_emptyPair (pending rest : Text) : ∃ c front more, (c = '}' ∨ c = ';') ∧
    Reader.pieces ⟨.emptyPair, 0, 0, pending⟩ ('}' :: rest) = segment (c :: front) ++ more := by
  rw [Reader.pieces_cons]
  by_cases hsemi : nextVisible rest = some ';'
  · have hstep : Reader.step ⟨.emptyPair, 0, 0, pending⟩ '}' rest
        = (Reader.between ('}' :: pending), []) := by
      simp only [Reader.step, if_pos hsemi, if_true]
      rfl
    obtain ⟨front, more, hpieces⟩ := Reader.pieces_semicolon hsemi ('}' :: pending)
    rw [hstep, List.nil_append, hpieces]
    exact ⟨';', front, more, .inr rfl, rfl⟩
  · have hstep : Reader.step ⟨.emptyPair, 0, 0, pending⟩ '}' rest
        = (Reader.fresh, segment ('}' :: pending)) := by
      simp only [Reader.step, if_neg hsemi, if_true]
      rfl
    rw [hstep]
    exact ⟨'}', pending, _, .inl rfl, rfl⟩

/-- the piece in which a block opens ends with a brace or a semicolon -/
theorem Reader.pieces_openBrace {pending : Text} (ho : opensInitializer pending = false)
    (rest : Text) : ∃ c front more, (c = '{' ∨ c = '}' ∨ c = ';') ∧
      (Reader.between pending).pieces ('{' :: rest) = segment (c :: front) ++ more := by
  have hstep : (Reader.between pending).step '{' rest
      = (Reader.between pending).openBrace rest := rfl
  have hinit : ¬ opensInitializer (Reader.between pending).pending = true := by
    show ¬ opensInitializer pending = true
    rw [ho]
    exact Bool.false_ne_true
  rw [Reader.pieces_cons, hstep, Reader.openBrace, if_neg hinit]
  split
  · rename_i hclose
    obtain ⟨gap, behind, _, rfl, hwait⟩ :=
      Reader.pieces_awaited (r := ⟨.emptyPair, 0, 0, '{' :: pending⟩) rfl hclose
    obtain ⟨c, front, more, hc, hpieces⟩ :=
      Reader.pieces_emptyPair (gap.reverse ++ '{' :: pending) behind
    exact ⟨c, front, more, .inr hc, hwait.trans hpieces⟩
  · exact ⟨'{', pending, _, .inl rfl, rfl⟩

theorem Reader.step_colon (pending rest : Text) : (Reader.between pending).step ':' rest
    = if endsLabel pending rest then (Reader.fresh, segment (':' :: pending))
      else (Reader.between (':' :: pending), []) := by
  have hstep : (Reader.between pending).step ':' rest
      = if ':' = ':' ∧ endsLabel pending rest then ((Reader.between pending).keep ':').cut
        else ((Reader.between pending).keep ':', []) := rfl
  rw [hstep]
  by_cases hends : endsLabel pending rest = true
  · rw [if_pos ⟨rfl, hends⟩, if_pos hends]
    rfl
  · rw [if_neg fun h => hends h.2, if_neg hends]
    rfl

/-- a label is cut at a colon that stands alone, or in the block behind it -/
theorem Reader.getLast?_of_pieces_colon {pending after s : Text}
    (hlabel : startsLabel (trim (':' :: pending).reverse) = true)
    (hleft : pending.head? ≠ some ':') (hright : after.head? ≠ some ':')
    (hafter : allBlank after = false) (h : (Reader.between pending).pieces (':' :: after) = [s]) :
    s.getLast? ≠ some ':' := by
  rw [Reader.pieces_cons, Reader.step_colon] at h
  by_cases hopen : nextVisible after = some '{'
  · have hends : ¬ endsLabel pending after = true := by
      simp [endsLabel, hopen]
    obtain ⟨gap, rest, hgap, rfl⟩ := exists_nextVisible hopen
    have hrev : allBlank gap.reverse = true := by rwa [allBlank, List.all_reverse]
    have hread := isKept_of_allBlank hgap (':' :: pending) ('{' :: rest)
    have hinit : opensInitializer (gap.reverse ++ ':' :: pending) = false := by
      refine @opensInitializer_of_head _ pending ':' ?_ (by decide) (by decide) (by decide)
      rw [trimLeft_blank_append hrev, trimLeft_cons_of_visible (by decide)]
    obtain ⟨c, front, more, hc, hpieces⟩ := Reader.pieces_openBrace hinit rest
    rw [if_neg hends, List.nil_append, Reader.pieces_append, hread, List.nil_append, hpieces] at h
    have hv : isBlank c = false := by
      rcases hc with rfl | rfl | rfl <;> decide
    have htrim : trim (c :: front).reverse = trimLeft front.reverse ++ [c] := by
      rw [List.reverse_cons, trim_append_cons hv]
      rfl
    rw [segment_of_visible (by rw [htrim]; simp), htrim] at h
    rw [← (List.cons.inj h).1, List.getLast?_concat]
    rcases hc with rfl | rfl | rfl <;> decide
  · have hends : endsLabel pending after = true := by
      rw [endsLabel, hlabel]
      simp [hleft, hright, hopen]
    rw [if_pos hends] at h
    have hv : allBlank (':' :: pending) = false := by
      rw [allBlank, List.all_cons, show isBlank ':' = false by decide, Bool.false_and]
    obtain ⟨first, more, hfirst⟩ := List.exists_cons_of_ne_nil (segment_ne_nil hv)
    rw [hfirst] at h
    have hnone := (List.append_eq_nil_iff.1 (List.cons.inj h).2).2
    exact absurd hnone (Reader.pieces_ne_nil hafter _)

/-! ## the text of a case -/

/-- a text that starts with `case` and is one piece with a colon at its end -/
structure IsCaseText (s : Text) : Prop where
  word : startsWithWord "case".toList s = true
  last : s.getLast? = some ':'
  piece : segments s = [s]

theorem IsCaseText.exists_rest {s : Text} (h : IsCaseText s) :
    ∃ r, s = "case".toList ++ r ∧ continuesWord r = false := by
  obtain ⟨r, hr⟩ := Option.isSome_iff_exists.1 h.word
  exact ⟨r, afterWord?_eq_some_iff.1 hr⟩

/-- a colon stands behind the word -/
theorem IsInnerColon.exists_before {s before after : Text} (h : IsInnerColon s before after)
    (hs : IsCaseText s) : ∃ x, before = "case".toList ++ x ∧
      continuesWord (x ++ ':' :: after) = false := by
  obtain ⟨r, rfl, hr⟩ := hs.exists_rest
  rcases List.append_eq_append_iff.1 h.split with ⟨x, rfl, hrest⟩ | ⟨x, hcase, hcolon⟩
  · exact ⟨x, rfl, hrest ▸ hr⟩
  · cases x with
    | nil => exact ⟨[], by rw [hcase]; simp, continuesWord_cons ':' after⟩
    | cons c x =>
      obtain ⟨rfl, _⟩ := List.cons.inj hcolon
      have hmem : ':' ∈ "case".toList := by
        rw [hcase]
        simp
      exact absurd hmem (by decide)

theorem IsInnerColon.allBlank_eq {s before after : Text} (h : IsInnerColon s before after)
    (hs : IsCaseText s) : allBlank after = false := by
  have hlast := hs.last
  rw [h.split, List.getLast?_append_of_ne_nil _ (List.cons_ne_nil _ _)] at hlast
  obtain ⟨t, c, rfl⟩ := (List.eq_nil_or_concat' after).resolve_left h.nonempty
  rw [← List.cons_append, List.getLast?_concat] at hlast
  have hcolon : isBlank ':' = false := by decide
  rw [Option.some.inj hlast, allBlank, List.all_append]
  simp [hcolon]

/-- what starts with `case` is a label up to every colon -/
theorem startsLabel_case {x r : Text} (h : continuesWord (x ++ ':' :: r) = false) :
    startsLabel (trim (':' :: ("case".toList ++ x).reverse).reverse) = true := by
  have hends : continuesWord (x ++ [':']) = false := by
    cases x with
    | nil => exact continuesWord_cons ':' []
    | cons c x => exact h
  have htrim : trim (':' :: ("case".toList ++ x).reverse).reverse
      = "case".toList ++ (x ++ [':']) := by
    rw [List.reverse_cons, List.reverse_reverse, List.append_assoc]
    exact trim_of_visible_ends (c := 'c') (by decide) (by decide) ("ase".toList ++ x)
  have hcase : startsWithWord "case".toList ("case".toList ++ (x ++ [':'])) = true :=
    Option.isSome_iff_exists.2 ⟨_, afterWord?_eq_some_iff.2 ⟨rfl, hends⟩⟩
  rw [htrim, startsLabel, hcase, Bool.true_or]

/-- **a case text is not cut at its inner colons**, since each of them is enclosed -/
theorem IsInnerColon.enclosed {s before after : Text} (h : IsInnerColon s before after)
    (hs : IsCaseText s) : (Reader.fresh.read before (':' :: after)).1.IsEnclosed := by
  obtain ⟨x, rfl, hword⟩ := h.exists_before hs
  have hafter := h.allBlank_eq hs
  have hrest := allBlank_cons_of_visible hafter ':'
  have hpiece := hs.piece
  rw [h.split] at hpiece
  obtain ⟨hdone, hpieces⟩ := Reader.read_of_piece hpiece hrest
  have htracks := Reader.Tracks.read (r := Reader.fresh) (t := "case".toList ++ x)
    (Reader.tracks_fresh ("case".toList ++ x ++ ':' :: after))
  rcases htracks.enclosed_or_between (by decide) (by decide) (by decide) with hr | hr
  · exact hr
  exfalso
  have hpending : (Reader.fresh.read ("case".toList ++ x) (':' :: after)).1.pending
      = ("case".toList ++ x).reverse := by
    have hkept : Reader.fresh.read "case".toList (x ++ ':' :: after)
        = (Reader.between "esac".toList, []) :=
      isKept_of_inert (List.all_eq_true.1 (by decide)) [] (x ++ ':' :: after)
    rw [Reader.read_append, hkept] at hdone ⊢
    show ((Reader.between "esac".toList).read x (':' :: after)).1.pending = _
    rw [Reader.read_pending (by decide) hdone, List.reverse_append]
    rfl
  rw [hr, hpending, ← h.split] at hpieces
  refine Reader.getLast?_of_pieces_colon (startsLabel_case hword) ?_ h.right hafter hpieces hs.last
  rw [List.head?_reverse]
  exact h.left

/-! ## the value -/

theorem IsCutAtColon.mem_segments {line s : Text} (h : IsCutAtColon line s) :
    s ∈ segments line := by
  obtain ⟨before, after, pending, rfl, hread, hends, rfl⟩ := h
  have hne : trim (':' :: pending).reverse ≠ [] := by
    rw [List.reverse_cons, trim_append_colon]
    simp
  rw [segments_eq, Reader.pieces_append, hread, Reader.pieces_cons, Reader.step_colon,
    if_pos hends, segment_of_visible hne]
  exact List.mem_append_right _ List.mem_cons_self

/-- the colon of the label stands alone -/
theorem IsCutAtColon.exists_front {line s : Text} (h : IsCutAtColon line s) :
    ∃ front, s = front ++ [':'] ∧ front.getLast? ≠ some ':' := by
  obtain ⟨before, after, pending, _, _, hends, rfl⟩ := h
  rw [endsLabel, Bool.and_eq_true, Bool.and_eq_true, Bool.and_eq_true, bne_iff_ne, bne_iff_ne]
    at hends
  refine ⟨trimLeft pending.reverse, by rw [List.reverse_cons, trim_append_colon], ?_⟩
  obtain ⟨gap, _, hgap⟩ := exists_trimLeft pending.reverse
  intro hlast
  have hpending : pending.reverse.getLast? = some ':' := by
    rw [hgap, List.getLast?_append, hlast]
    rfl
  rw [List.getLast?_reverse] at hpending
  exact hends.1.1.2 hpending

theorem IsCutAtColon.isCaseText {line s : Text} (h : IsCutAtColon line s)
    (hw : startsWithWord "case".toList s = true) : IsCaseText s where
  word := hw
  last := by
    obtain ⟨front, rfl, _⟩ := h.exists_front
    exact List.getLast?_concat
  piece := segments_of_mem_segments h.mem_segments

/-- the word, the text that a value should be, and the colon -/
theorem IsCutAtColon.exists_value {line s : Text} (h : IsCutAtColon line s)
    (hw : startsWithWord "case".toList s = true) :
    ∃ u, s = "case".toList ++ (u ++ [':']) ∧ ("case".toList ++ u).getLast? ≠ some ':' := by
  obtain ⟨front, rfl, hlast⟩ := h.exists_front
  obtain ⟨r, hr, _⟩ := (h.isCaseText hw).exists_rest
  rcases List.eq_nil_or_concat' r with rfl | ⟨u, c, rfl⟩
  · have hend := congrArg List.getLast? hr
    rw [List.getLast?_concat] at hend
    cases hend
  · rw [← List.append_assoc] at hr
    obtain ⟨rfl, hcolon⟩ := List.append_inj' hr rfl
    exact ⟨u, List.append_assoc _ _ _, hlast⟩

theorem caseValue_case (r : Text) :
    caseValue ("case".toList ++ r) = trim (beforeColon false r) := rfl

/-- a colon in front of the last one is an inner one -/
theorem isInnerColon_of_split {u a b : Text} (hu : u = a ++ ':' :: b)
    (ha : ("case".toList ++ a).getLast? ≠ some ':') (hb : (b ++ [':']).head? ≠ some ':') :
    IsInnerColon ("case".toList ++ (u ++ [':'])) ("case".toList ++ a) (b ++ [':']) where
  split := by
    rw [hu]
    simp
  nonempty := by simp
  left := ha
  right := hb

/-- what is trimmed of a text is no longer the whole of it if a colon is left out -/
theorem trim_ne_of_colon {v x y : Text} (h : v <+: x) : trim v ≠ trim (x ++ ':' :: y) :=
  trim_ne_of_visible (by decide) h

/-- **the value of a case is the text up to the colon of the label if and only if the label has no
inner colon**: the line is cut at no inner colon, since each is enclosed in something, and the value
is read no further than to the first -/
theorem caseValue_eq_iff {line s : Text} (h : IsCutAtColon line s)
    (hw : startsWithWord "case".toList s = true) :
    s ∈ splitLine line ∧ ∃ u, s = "case".toList ++ (u ++ [':']) ∧
      (caseValue s = trim u ↔ ∀ before after, ¬ IsInnerColon s before after) ∧
      ∀ before after, IsInnerColon s before after →
        (Reader.fresh.read before (':' :: after)).1.IsEnclosed := by
  have hs := h.isCaseText hw
  have hmem : s ∈ splitLine line := by
    have hlabel : startsLabel s = true := by rw [startsLabel, hw, Bool.true_or]
    refine List.mem_flatMap.2 ⟨s, h.mem_segments, ?_⟩
    rw [peelHeaders_of_label hlabel]
    exact List.mem_singleton_self s
  obtain ⟨u, rfl, hlast⟩ := h.exists_value hw
  have hinner : ∀ before after, IsInnerColon ("case".toList ++ (u ++ [':'])) before after →
      caseValue ("case".toList ++ (u ++ [':'])) ≠ trim u := by
    intro before after hi
    obtain ⟨x, rfl, _⟩ := hi.exists_before hs
    obtain ⟨y, c, rfl⟩ := (List.eq_nil_or_concat' after).resolve_left hi.nonempty
    have hsplit : u ++ [':'] = x ++ ':' :: (y ++ [c]) := by
      have hall := hi.split
      rw [List.append_assoc] at hall
      exact List.append_cancel_left hall
    have hread : beforeColon false (x ++ ':' :: (y ++ [c])) <+: x :=
      beforeColon_prefix (p := "case".toList) hi.left hi.right
    have hu : u = x ++ ':' :: y := by
      rw [← List.cons_append, ← List.append_assoc] at hsplit
      exact (List.append_inj' hsplit rfl).1
    rw [caseValue_case, hsplit, hu]
    exact trim_ne_of_colon hread
  refine ⟨hmem, u, rfl, ⟨fun heq before after hi => hinner before after hi heq, ?_⟩,
    fun before after hi => hi.enclosed hs⟩
  intro hno
  have hvalue : beforeColon false (u ++ [':']) = u := by
    refine beforeColon_of_outer (p := "case".toList) hlast (by simp) ?_
    intro a b hu ha
    by_contra hb
    exact hno _ _ (isInnerColon_of_split hu ha hb)
  rw [caseValue_case, hvalue]

/-- a qualified constant, whose colons stand next to each other -/
theorem caseValue_qualified :
    IsCutAtColon "case A::B: x();".toList "case A::B:".toList ∧
    startsWithWord "case".toList "case A::B:".toList = true ∧
    "case A::B:".toList ∈ splitLine "case A::B: x();".toList ∧
    caseValue "case A::B:".toList = trim " A::B".toList ∧
    ∀ before after, ¬ IsInnerColon "case A::B:".toList before after := by
  have h : IsCutAtColon "case A::B: x();".toList "case A::B:".toList :=
    ⟨"case A::B".toList, " x();".toList, "B::A esac".toList, by decide +kernel, by decide +kernel,
      by decide +kernel, by decide +kernel⟩
  have hw : startsWithWord "case".toList "case A::B:".toList = true := by decide +kernel
  have hvalue : caseValue "case A::B:".toList = trim " A::B".toList := by decide +kernel
  obtain ⟨hmem, u, hu, hiff, _⟩ := caseValue_eq_iff h hw
  have hparts : "case".toList ++ (" A::B".toList ++ [':']) = "case".toList ++ (u ++ [':']) := hu
  have hfront : " A::B".toList = u := List.append_cancel_right (List.append_cancel_left hparts)
  rw [← hfront] at hiff
  exact ⟨h, hw, hmem, hvalue, hiff.1 hvalue⟩

/-- the value of a case that is a colon between quotes -/
theorem caseValue_quotedColon :
    IsCutAtColon "case ':': x();".toList "case ':':".toList ∧
    startsWithWord "case".toList "case ':':".toList = true ∧
    "case ':':".toList ∈ splitLine "case ':': x();".toList ∧
    "case ':':".toList = "case".toList ++ (" ':'".toList ++ [':']) ∧
    caseValue "case ':':".toList = ['\''] ∧ trim " ':'".toList = "':'".toList ∧
    caseValue "case ':':".toList ≠ trim " ':'".toList := by
  refine ⟨⟨"case ':'".toList, " x();".toList, "':' esac".toList, ?_, ?_, ?_, ?_⟩, ?_⟩
  all_goals decide +kernel

end CodeChart
