import CodeChart.Proofs.Source.Atomic
import Mathlib.Data.List.Forall2
import Mathlib.Logic.Relation

/-!
# The content of a literal

A line is cut into statements without a look at what its literals hold.

* `quoted`, `IsContent`  a literal, and what may stand in it without ending it;
* `Refilled`             two texts that are the same but for the content of one literal;
                         `Refilled.of_append` says that the literal lies on one side of every place
                         outside of literals;
* `Refilled.peelHeaders`, `Refilled.segments`, `Refilled.splitLine`   the parts of two such texts,
                         which are the same but for one, and that one is refilled;
* `Reader.Tracks.literal_read`   a reader stands inside a literal where the text does.
-/

namespace CodeChart

/-! ## literals -/

/-- a literal with a given content -/
def quoted (q : Char) (c : Text) : Text := q :: (c ++ [q])

/-- the text ends no literal, takes no character with it and is part of no comment -/
structure IsContent (c : Text) : Prop where
  noQuote : ∀ x ∈ c, isQuote x = false
  noEscape : '\\' ∉ c
  oneLine : '\n' ∉ c
  noLineComment : ¬ "//".toList <:+: c
  noOpener : ¬ commentOpener <:+: c
  noCloser : ¬ commentCloser <:+: c

theorem noQuote_of_any {t : Text} (h : t.any isQuote = false) : ∀ x ∈ t, isQuote x = false :=
  fun x hx => Bool.eq_false_iff.2 (List.any_eq_false.1 h x hx)

theorem isContent_nil : IsContent [] :=
  ⟨noQuote_of_any rfl, by decide, by decide, by decide, by decide, by decide⟩

theorem quoted_append (q : Char) (c z : Text) : quoted q c ++ z = q :: (c ++ q :: z) := by
  simp [quoted]

theorem isQuote_cases {q : Char} (h : isQuote q = true) : q = '"' ∨ q = '\'' := by
  simpa [isQuote] using h

theorem ne_of_isQuote {q x : Char} (hq : isQuote q = true) (hx : isQuote x = false) : q ≠ x := by
  rintro rfl
  rw [hq] at hx
  cases hx

/-- without quotes no literal opens -/
theorem Literal.outside_after {t : Text} (h : ∀ x ∈ t, isQuote x = false) :
    Literal.outside.after t = .outside := by
  induction t with
  | nil => rfl
  | cons x t ih =>
    obtain ⟨hx, ht⟩ := List.forall_mem_cons.1 h
    rw [Literal.after_cons, Literal.next, hx]
    exact ih ht

theorem isQuote_of_isBlank {x : Char} (h : isBlank x = true) : isQuote x = false :=
  isQuote_of_isInert (isInert_of_isBlank h)

theorem Literal.outside_after_trimLeft (t : Text) :
    Literal.outside.after (trimLeft t) = Literal.outside.after t := by
  obtain ⟨gap, hgap, ht⟩ := exists_trimLeft t
  have hout := Literal.outside_after fun x hx => isQuote_of_isBlank (List.all_eq_true.1 hgap x hx)
  conv_rhs => rw [ht, Literal.after_append, hout]

section
variable {q : Char} {c : Text} (hq : isQuote q = true) (hc : IsContent c)
include hq

theorem isBlank_of_isQuote : isBlank q = false := by
  rcases isQuote_cases hq with rfl | rfl <;> decide

theorem continuesWord_of_isQuote (w : Text) : continuesWord (q :: w) = false := by
  rcases isQuote_cases hq with rfl | rfl <;> exact continuesWord_cons _ _

theorem ne_escape_of_isQuote : q ≠ '\\' := ne_of_isQuote hq (by decide)

theorem startsWithWord_append_quote {w : Text} (hw : w.all isWord = true) (t z : Text) :
    startsWithWord w (t ++ q :: z) = startsWithWord w t :=
  startsWithWord_append hw (continuesWord_of_isQuote hq z) t

theorem startsLabel_append_quote (t z : Text) : startsLabel (t ++ q :: z) = startsLabel t := by
  rw [startsLabel, startsLabel, startsWithWord_append_quote hq (by decide +kernel),
    startsWithWord_append_quote hq (by decide +kernel)]

theorem Literal.outside_next_quote : Literal.outside.next q = .within q := by
  rw [Literal.next, if_pos hq]

theorem Literal.within_next_quote : (Literal.within q).next q = .outside := by
  rw [Literal.next, if_neg (ne_escape_of_isQuote hq), if_pos rfl]

include hc

theorem IsContent.within_after {u : Text} (hu : u ⊆ c) :
    (Literal.within q).after u = .within q :=
  Literal.within_after fun x hx =>
    ⟨fun he => hc.noEscape (he ▸ hu hx), (ne_of_isQuote hq (hc.noQuote x (hu hx))).symm⟩

theorem IsContent.within_next {x : Char} (hx : x ∈ c) : (Literal.within q).next x = .within q :=
  hc.within_after hq (u := [x]) (by simpa using hx)

/-- a literal has no place outside of literals but its two ends -/
theorem IsContent.ends_of_outside {a b : Text} (h : a ++ b = quoted q c)
    (ha : Literal.outside.after a = .outside) : a = [] ∨ b = [] := by
  cases a with
  | nil => exact .inl rfl
  | cons x a =>
    right
    obtain ⟨rfl, hrest⟩ := List.cons.inj h
    by_contra hb
    obtain ⟨b, y, rfl⟩ := (List.eq_nil_or_concat' b).resolve_left hb
    have hsplit : (a ++ b) ++ [y] = c ++ [x] := by rwa [List.append_assoc]
    have hin : a ⊆ c := (List.append_singleton_inj.1 hsplit).1 ▸ List.subset_append_left a b
    rw [Literal.after_cons, Literal.outside_next_quote hq, hc.within_after hq hin] at ha
    cases ha

end

/-! ## one literal with two contents -/

/-- the literal stands outside of all others -/
inductive Refilled (q : Char) (c d : Text) : Text → Text → Prop
  | intro (p z : Text) (hp : Literal.outside.after p = .outside) :
      Refilled q c d (p ++ (quoted q c ++ z)) (p ++ (quoted q d ++ z))

section
variable {q : Char} {c d t u : Text} (h : Refilled q c d t u)
include h

theorem Refilled.symm : Refilled q d c u t := by
  obtain ⟨p, z, hp⟩ := h
  exact .intro p z hp

theorem Refilled.quote_mem : q ∈ t := by
  obtain ⟨p, z, _⟩ := h
  rw [quoted_append]
  exact List.mem_append_right p List.mem_cons_self

/-- the texts differ behind a quote only -/
theorem Refilled.exists_common : ∃ p x y, t = p ++ q :: x ∧ u = p ++ q :: y := by
  obtain ⟨p, z, _⟩ := h
  exact ⟨p, c ++ q :: z, d ++ q :: z, by rw [quoted_append], by rw [quoted_append]⟩

theorem Refilled.oneLine (hd : IsContent d) (ht : '\n' ∉ t) : '\n' ∉ u := by
  obtain ⟨p, z, _⟩ := h
  have hn := hd.oneLine
  simp only [quoted, List.mem_append, List.mem_cons, List.not_mem_nil, or_false, not_or] at ht ⊢
  exact ⟨ht.1, ⟨ht.2.1.1, hn, ht.2.1.1⟩, ht.2.2⟩

section
variable (hq : isQuote q = true)
include hq

theorem Refilled.nextVisible_eq : nextVisible t = nextVisible u := by
  obtain ⟨p, x, y, rfl, rfl⟩ := h.exists_common
  rw [nextVisible_append, nextVisible_append, nextVisible_cons_of_visible (isBlank_of_isQuote hq),
    nextVisible_cons_of_visible (isBlank_of_isQuote hq)]

theorem Refilled.trim : Refilled q c d (trim t) (trim u) := by
  obtain ⟨p, z, hp⟩ := h
  have hv := isBlank_of_isQuote hq
  have htrim : ∀ c : Text, CodeChart.trim (p ++ (quoted q c ++ z))
      = trimLeft p ++ (quoted q c ++ trimRight z) := by
    intro c
    rw [quoted_append, quoted_append, trim_append_cons hv, trimRight_append_cons hv]
  rw [htrim, htrim]
  exact .intro _ _ (by rw [Literal.outside_after_trimLeft, hp])

end

/-- nothing happens to a text without quotes -/
theorem Refilled.not_of_no_quote (hq : isQuote q = true) (ht : ∀ x ∈ t, isQuote x = false) :
    False := by
  have hno := ht q h.quote_mem
  rw [hq] at hno
  cases hno

end

section
variable {q : Char} {c d : Text} (hq : isQuote q = true) (hc : IsContent c)
include hq hc

/-- **the literal lies on one side** of every place outside of literals -/
theorem Refilled.of_append {a b u : Text} (h : Refilled q c d (a ++ b) u)
    (ha : Literal.outside.after a = .outside) :
    (∃ b', u = a ++ b' ∧ Refilled q c d b b') ∨ ∃ a', u = a' ++ b ∧ Refilled q c d a a' := by
  generalize ht : a ++ b = t at h
  obtain ⟨p, z, hp⟩ := h
  rcases List.append_eq_append_iff.1 ht with ⟨p', rfl, rfl⟩ | ⟨a', rfl, hrest⟩
  · rw [Literal.after_append, ha] at hp
    exact .inl ⟨p' ++ (quoted q d ++ z), List.append_assoc _ _ _, .intro p' z hp⟩
  rw [Literal.after_append, hp] at ha
  rcases List.append_eq_append_iff.1 hrest.symm with ⟨w, hw, rfl⟩ | ⟨z', rfl, rfl⟩
  · -- the two ends of the literal
    rcases hc.ends_of_outside hq hw.symm ha with rfl | rfl
    · rw [List.nil_append] at hw
      subst hw
      exact .inl ⟨quoted q d ++ z, by rw [List.append_nil], .intro [] z rfl⟩
    · rw [List.append_nil] at hw
      subst hw
      refine .inr ⟨p ++ (quoted q d ++ []), by simp, ?_⟩
      have hlast := @Refilled.intro q c d p [] hp
      rwa [List.append_nil] at hlast
  · exact .inr ⟨p ++ (quoted q d ++ z'), by simp, .intro p z' hp⟩

theorem Refilled.of_append_left {a b u : Text} (h : Refilled q c d (a ++ b) u)
    (ha : ∀ x ∈ a, isQuote x = false) : ∃ b', u = a ++ b' ∧ Refilled q c d b b' := by
  rcases h.of_append hq hc (Literal.outside_after ha) with hright | ⟨a', _, hleft⟩
  · exact hright
  · exact (hleft.not_of_no_quote hq ha).elim

theorem Refilled.of_append_right {a b u : Text} (h : Refilled q c d (a ++ b) u)
    (ha : Literal.outside.after a = .outside) (hb : ∀ x ∈ b, isQuote x = false) :
    ∃ a', u = a' ++ b ∧ Refilled q c d a a' := by
  rcases h.of_append hq hc ha with ⟨b', _, hright⟩ | hleft
  · exact (hright.not_of_no_quote hq hb).elim
  · exact hleft

/-! ## headers -/

theorem isBalanced_quoted (depth : Nat) (z : Text) :
    isBalanced depth .outside (quoted q c ++ z) = isBalanced depth .outside z := by
  have hwithin : ∀ u : Text, u ⊆ c →
      isBalanced depth (.within q) (u ++ q :: z) = isBalanced depth .outside z := by
    intro u hu
    induction u with
    | nil =>
      rw [List.nil_append, isBalanced, if_neg (by simp), Literal.within_next_quote hq]
    | cons x u ih =>
      rw [List.cons_append, isBalanced, if_neg (by simp),
        hc.within_next hq (hu List.mem_cons_self)]
      exact ih fun y hy => hu (List.mem_cons_of_mem x hy)
  rw [quoted_append, isBalanced, if_pos rfl, if_neg (ne_of_isQuote hq (by decide)),
    if_neg (ne_of_isQuote hq (by decide)), Literal.outside_next_quote hq]
  exact hwithin c (List.Subset.refl c)

end

theorem Literal.after_of_isBalanced {depth : Nat} {l : Literal} {g : Text}
    (h : isBalanced depth l g = true) : l.after g = .outside := by
  induction g generalizing depth l with
  | nil =>
    rw [isBalanced, Bool.and_eq_true, beq_iff_eq, beq_iff_eq] at h
    exact h.2
  | cons x g ih =>
    obtain ⟨_, _, hg⟩ := isBalanced_cons_iff.1 h
    rw [Literal.after_cons]
    exact ih hg

section
variable {q : Char} {c d : Text} (hq : isQuote q = true) (hc : IsContent c) (hd : IsContent d)
include hq hc hd

theorem isBalanced_refilled (z : Text) {p : Text} {l : Literal} (hp : l.after p = .outside)
    (depth : Nat) : isBalanced depth l (p ++ (quoted q c ++ z))
      = isBalanced depth l (p ++ (quoted q d ++ z)) := by
  induction p generalizing depth l with
  | nil =>
    have hl : l = .outside := hp
    rw [List.nil_append, List.nil_append, hl, isBalanced_quoted hq hc, isBalanced_quoted hq hd]
  | cons x p ih =>
    rw [Literal.after_cons] at hp
    rw [List.cons_append, List.cons_append, Bool.eq_iff_iff, isBalanced_cons_iff,
      isBalanced_cons_iff]
    simp only [ih hp]

/-- parentheses in a literal do not count -/
theorem Refilled.isBalanced_eq {t u : Text} (h : Refilled q c d t u) (depth : Nat) :
    isBalanced depth .outside t = isBalanced depth .outside u := by
  obtain ⟨p, z, hp⟩ := h
  exact isBalanced_refilled hq hc hd z hp depth

omit hc hd in
theorem Refilled.isElseBody {t u : Text} (h : Refilled q c d t u) (ht : IsElseBody t) :
    IsElseBody u := by
  have hvisible := h.nextVisible_eq hq
  have hhead : ∀ v : Text, trimLeft v = v → v.head? = nextVisible v := fun v hv => by
    rw [← head?_trimLeft, hv]
  obtain ⟨p, x, y, rfl, rfl⟩ := h.exists_common
  have hstart : trimLeft (p ++ q :: y) = p ++ q :: y := by
    have hp := ht.start
    rw [trimLeft_append_cons (isBlank_of_isQuote hq), List.append_cancel_right_eq] at hp
    rw [trimLeft_append_cons (isBlank_of_isQuote hq), hp]
  have hword := ht.noIf
  rw [startsWithWord_append_quote hq (by decide +kernel)] at hword
  refine ⟨hstart, by simp, ?_, by rwa [startsWithWord_append_quote hq (by decide +kernel)]⟩
  rw [hhead _ hstart, ← hvisible, ← hhead _ ht.start]
  exact ht.noBrace

theorem Refilled.elseBody? {t u body : Text} (h : Refilled q c d t u) (hn : '\n' ∉ t)
    (he : elseBody? t = some body) :
    ∃ body', CodeChart.elseBody? u = some body' ∧ Refilled q c d body body' := by
  have hn' := h.oneLine hd hn
  obtain ⟨gap, hgap, hne, hbody, rfl⟩ := (elseBody?_eq_some_iff hn).1 he
  have hlead : ∀ x ∈ "else".toList ++ gap, isQuote x = false := by
    intro x hx
    rcases List.mem_append.1 hx with hx | hx
    · exact noQuote_of_any (t := "else".toList) rfl x hx
    · exact isQuote_of_isBlank (List.all_eq_true.1 hgap x hx)
  rw [← List.append_assoc] at h
  obtain ⟨body', rfl, hrest⟩ := h.of_append_left hq hc hlead
  rw [List.append_assoc] at hn' ⊢
  exact ⟨body', (elseBody?_eq_some_iff hn').2 ⟨gap, hgap, hne, hrest.isElseBody hq hbody, rfl⟩,
    hrest⟩

theorem Refilled.conditionBody? {t u header body : Text} (h : Refilled q c d t u)
    (hb : conditionBody? t = some (header, body)) :
    ∃ header' body', CodeChart.conditionBody? u = some (header', body') ∧
      (header' = header ∧ Refilled q c d body body' ∨
        Refilled q c d header header' ∧ body' = body) := by
  obtain ⟨lead, g, rest, hlead, hg, hrest, rfl, rfl, rfl⟩ := conditionBody?_eq_some hb
  have hquotes : ∀ x ∈ lead ++ ['('], isQuote x = false := by
    intro x hx
    rcases List.mem_append.1 hx with hx | hx
    · exact isQuote_of_isInert (hlead.isInert x hx)
    · rw [List.mem_singleton.1 hx]
      decide
  have hlead' : ∀ w : Text, lead ++ '(' :: w = lead ++ ['('] ++ w := fun w => by simp
  have hgroup : Literal.outside.after (lead ++ '(' :: (g ++ [')'])) = .outside := by
    rw [hlead', Literal.after_append, Literal.outside_after hquotes, Literal.after_append,
      Literal.after_of_isBalanced hg]
    rfl
  rw [header_append] at h
  rcases h.of_append hq hc hgroup with ⟨rest', rfl, hin⟩ | ⟨header', rfl, hin⟩
  · -- the literal stands in the body
    obtain ⟨x, hx, hne⟩ := hrest
    rw [hin.nextVisible_eq hq] at hx
    refine ⟨_, CodeChart.trim rest', ?_, .inl ⟨rfl, hin.trim hq⟩⟩
    rw [← header_append, hlead.conditionBody?_of_body hg ⟨x, hx, hne⟩]
  · -- the literal stands in the condition
    have hheader := hin
    rw [hlead'] at hheader
    obtain ⟨w, rfl, hw⟩ := hheader.of_append_left hq hc hquotes
    obtain ⟨g', rfl, hg'⟩ :=
      hw.of_append_right hq hc (Literal.after_of_isBalanced hg) (noQuote_of_any rfl)
    rw [hg'.isBalanced_eq hq hc hd] at hg
    refine ⟨_, CodeChart.trim rest, ?_, .inr ⟨hin, rfl⟩⟩
    rw [← hlead', ← header_append, hlead.conditionBody?_of_body hg hrest]

theorem Refilled.elseBody?_eq_none {t u : Text} (h : Refilled q c d t u) (hn : '\n' ∉ t)
    (he : CodeChart.elseBody? t = none) : CodeChart.elseBody? u = none := by
  by_contra hsome
  obtain ⟨body, hbody⟩ := Option.ne_none_iff_exists'.1 hsome
  obtain ⟨body', hbody', _⟩ := h.symm.elseBody? hq hd hc (h.oneLine hd hn) hbody
  rw [he] at hbody'
  cases hbody'

theorem Refilled.conditionBody?_eq_none {t u : Text} (h : Refilled q c d t u)
    (hb : CodeChart.conditionBody? t = none) : CodeChart.conditionBody? u = none := by
  by_contra hsome
  obtain ⟨⟨header, body⟩, hbody⟩ := Option.ne_none_iff_exists'.1 hsome
  obtain ⟨header', body', hbody', _⟩ := h.symm.conditionBody? hq hd hc hbody
  rw [hb] at hbody'
  cases hbody'

/-- **the headers and the body are the same**, but for the one that the literal stands in -/
theorem Refilled.peelHeaders {t u : Text} (h : Refilled q c d t u) (hn : '\n' ∉ t) :
    List.Forall₂ (Relation.ReflGen (Refilled q c d)) (peelHeaders t) (CodeChart.peelHeaders u) := by
  induction t using peelHeaders.induct generalizing u with
  | case1 t body he ih =>
    obtain ⟨body', he', hbody⟩ := h.elseBody? hq hc hd hn he
    rw [peelHeaders_of_else he, peelHeaders_of_else he']
    refine .cons .refl (ih hbody ?_)
    obtain ⟨gap, _, _, _, rfl⟩ := (elseBody?_eq_some_iff hn).1 he
    exact fun hm => hn (List.mem_append_right _ (List.mem_append_right _ hm))
  | case2 t he header body hb ih =>
    have he' := h.elseBody?_eq_none hq hc hd hn he
    obtain ⟨header', body', hb', hsame⟩ := h.conditionBody? hq hc hd hb
    rw [peelHeaders_of_condition he hb, peelHeaders_of_condition he' hb']
    have hline : '\n' ∉ body := by
      obtain ⟨lead, g, rest, _, _, _, rfl, rfl, rfl⟩ := conditionBody?_eq_some hb
      have hrest : '\n' ∉ rest := by
        simp only [List.mem_append, List.mem_cons, not_or] at hn
        exact hn.2.2.2.2
      exact fun hm => hrest ((trim_isInfix rest).subset hm)
    rcases hsame with ⟨rfl, hbody⟩ | ⟨hheader, rfl⟩
    · exact .cons .refl (ih hbody hline)
    · exact .cons (.single hheader) (List.forall₂_refl _)
  | case3 t he hb =>
    rw [peelHeaders_of_none he hb, peelHeaders_of_none (h.elseBody?_eq_none hq hc hd hn he)
      (h.conditionBody?_eq_none hq hc hd hb)]
    exact .cons (.single h) .nil

end

/-! ## the reader -/

/-- where a reader in this mode stands with respect to literals -/
def Mode.literal : Mode → Literal
  | .code l => l
  | .emptyPair | .closer => .outside

theorem Reader.literal_stepCode {r : Reader} (hm : r.mode = .code .outside) (c : Char)
    (rest : Text) : (r.stepCode c rest).1.mode.literal = Literal.outside.next c := by
  have hr : r.mode.literal = .outside := by rw [hm]; rfl
  unfold Reader.stepCode
  by_cases hq : isQuote c = true
  · rw [if_pos hq, Literal.next, if_pos hq]
    rfl
  rw [if_neg hq, Literal.next, if_neg hq]
  split
  · exact hr
  split
  · exact hr
  split
  · exact hr
  split
  · split
    · exact hr
    · split <;> exact hr
  split
  · unfold Reader.openBrace
    split
    · exact hr
    · split
      · rfl
      · exact hr
  split
  · simp only [Reader.closeBrace]
    split
    · rfl
    · exact hr
  split
  · exact hr
  split <;> exact hr

section
variable {r : Reader}

/-- a reader that is not in code waits for a brace or a semicolon, and only blanks come first -/
theorem Reader.Tracks.literal_step {c : Char} {rest : Text} (h : r.Tracks (c :: rest)) :
    (r.step c rest).1.mode.literal = r.mode.literal.next c := by
  have hwait : ∀ d, nextVisible (c :: rest) = some d → isQuote d = false → isQuote c = false := by
    intro d hd hq
    cases hc : isBlank c with
    | true => exact isQuote_of_isBlank hc
    | false =>
      rw [nextVisible_cons_of_visible hc] at hd
      rwa [Option.some.inj hd]
  unfold Reader.step
  cases hm : r.mode with
  | code l =>
    cases l with
    | outside => exact Reader.literal_stepCode hm c rest
    | within q => rfl
    | escaped q => rfl
  | emptyPair =>
    have hc := hwait '}' (h.emptyPair hm).2.2 (by decide)
    show _ = Literal.outside.next c
    rw [Literal.next, hc]
    simp only
    split
    · split <;> rfl
    · exact congrArg Mode.literal hm
  | closer =>
    have hc := hwait ';' (h.closer hm).2.2 (by decide)
    show _ = Literal.outside.next c
    rw [Literal.next, hc]
    simp only
    split
    · rfl
    · exact congrArg Mode.literal hm

theorem Reader.Tracks.read {t rest : Text} (h : r.Tracks (t ++ rest)) :
    (r.read t rest).1.Tracks rest := by
  induction t generalizing r with
  | nil => exact h
  | cons c t ih =>
    rw [Reader.read_cons]
    exact ih (Reader.Tracks.step h).tracks

/-- a reader stands inside a literal where the text does -/
theorem Reader.Tracks.literal_read {t rest : Text} (h : r.Tracks (t ++ rest)) :
    (r.read t rest).1.mode.literal = r.mode.literal.after t := by
  induction t generalizing r with
  | nil => rfl
  | cons c t ih =>
    rw [Reader.read_cons, Literal.after_cons, ← Reader.Tracks.literal_step h]
    exact ih (Reader.Tracks.step h).tracks

/-- in front of a quote, nothing but code can stand outside of literals -/
theorem Reader.Tracks.mode_eq {q : Char} {rest : Text} (h : r.Tracks (q :: rest))
    (hq : isQuote q = true) (hl : r.mode.literal = .outside) : r.mode = .code .outside := by
  have hnext := nextVisible_cons_of_visible (isBlank_of_isQuote hq) rest
  cases hm : r.mode with
  | code l =>
    rw [hm] at hl
    exact congrArg Mode.code hl
  | emptyPair =>
    have hbrace := (h.emptyPair hm).2.2
    rw [hnext] at hbrace
    exact absurd (Option.some.inj hbrace) (ne_of_isQuote hq (by decide))
  | closer =>
    have hsemi := (h.closer hm).2.2
    rw [hnext] at hsemi
    exact absurd (Option.some.inj hsemi) (ne_of_isQuote hq (by decide))

end

section
variable {q : Char} {c d : Text} (hq : isQuote q = true) (hc : IsContent c)
include hq hc

theorem Reader.read_within {r : Reader} (hm : r.mode = .code (.within q)) {u : Text} (hu : u ⊆ c)
    (rest : Text) : r.read u rest = ({ r with pending := u.reverse ++ r.pending }, []) := by
  induction u generalizing r with
  | nil => rfl
  | cons x u ih =>
    have hstep : r.step x (u ++ rest) = (r.keep x, []) := by
      rw [Reader.step, hm]
      simp only [hc.within_next hq (hu List.mem_cons_self), Reader.keep, ← hm]
    rw [Reader.read_cons, hstep, ih (r := r.keep x) hm (List.subset_of_cons_subset hu),
      List.reverse_cons, List.append_assoc]
    rfl

/-- a literal is kept, whatever is open around it -/
theorem Reader.read_quoted {r : Reader} (hm : r.mode = .code .outside) (rest : Text) :
    r.read (quoted q c) rest = ({ r with pending := (quoted q c).reverse ++ r.pending }, []) := by
  obtain ⟨mode, parens, initializers, pending⟩ := r
  obtain rfl : mode = .code .outside := hm
  have hopen : (⟨.code .outside, parens, initializers, pending⟩ : Reader).step q (c ++ [q] ++ rest)
      = (⟨.code (.within q), parens, initializers, q :: pending⟩, []) := if_pos hq
  have hwithin := Reader.read_within hq hc
    (r := ⟨.code (.within q), parens, initializers, q :: pending⟩) rfl (List.Subset.refl c)
    ([q] ++ rest)
  have hclose :
      (⟨.code (.within q), parens, initializers, c.reverse ++ q :: pending⟩ : Reader).step q
        ([] ++ rest)
      = (⟨.code .outside, parens, initializers, q :: (c.reverse ++ q :: pending)⟩, []) := by
    simp only [Reader.step, Literal.within_next_quote hq, Reader.keep]
  have hquoted : (quoted q c).reverse ++ pending = q :: (c.reverse ++ q :: pending) := by
    simp [quoted]
  rw [hquoted, quoted]
  simp only [Reader.read_cons, Reader.read_append, Reader.read_nil, hopen, hwithin, hclose,
    List.append_nil]

end

section
variable {q : Char} (hq : isQuote q = true)
include hq

/-- what a reader looks at behind the pending text is the closing quote, and the start of the
statement -/
theorem sameBehind_quoted (c d before pending : Text) (x : Char) :
    SameBehind ((quoted q c).reverse ++ before) ((quoted q d).reverse ++ before) pending x := by
  have hreverse : ∀ c : Text, (quoted q c).reverse ++ before = q :: (c.reverse ++ q :: before) :=
    fun c => by simp [quoted]
  have hinit : ∀ w : Text, opensInitializer (pending ++ q :: w) = opensInitializer pending := by
    intro w
    refine opensInitializer_append (continuesWord_of_isQuote hq w) ?_ pending
    exact opensInitializer_of_head (trimLeft_cons_of_visible (isBlank_of_isQuote hq) w)
      (ne_of_isQuote hq (by decide)) (ne_of_isQuote hq (by decide)) (ne_of_isQuote hq (by decide))
  have hhead : ∀ c : Text, (pending ++ ((quoted q c).reverse ++ before)).head?
      = (pending ++ [q]).head? := by
    intro c
    rw [hreverse]
    cases pending <;> rfl
  have hlabel : ∀ c : Text,
      startsLabel (trim (':' :: (pending ++ ((quoted q c).reverse ++ before))).reverse)
      = startsLabel (trimLeft before.reverse) := by
    intro c
    have hsplit : (pending ++ ((quoted q c).reverse ++ before)).reverse
        = before.reverse ++ q :: (c ++ q :: pending.reverse) := by simp [quoted]
    rw [List.reverse_cons, trim_append_colon, startsLabel_append_colon, hsplit,
      trimLeft_append_cons (isBlank_of_isQuote hq), startsLabel_append_quote hq]
  refine ⟨by rw [hreverse, hreverse, hinit, hinit], fun _ rest => ?_⟩
  rw [endsLabel, endsLabel, hhead, hhead, hlabel, hlabel]

end

section
variable {q : Char} {c d : Text} (hq : isQuote q = true) (hc : IsContent c) (hd : IsContent d)
include hq

/-- what is read in front of a quote does not depend on the literal; there the reader is in code,
and no literal is open in what it has kept -/
theorem exists_reader_at_quote {p : Text} (hp : Literal.outside.after p = .outside) :
    ∃ (before : List Text) (r : Reader), r.mode = .code .outside ∧
      Literal.outside.after r.pending.reverse = .outside ∧
      ∀ rest, segments (p ++ q :: rest) = before ++ r.pieces (q :: rest) := by
  have htracks : (Reader.fresh.read p [q]).1.Tracks [q] := (Reader.tracks_fresh (p ++ [q])).read
  have hliteral : (Reader.fresh.read p [q]).1.mode.literal = .outside :=
    (Reader.tracks_fresh (p ++ [q])).literal_read.trans hp
  refine ⟨(Reader.fresh.read p [q]).2, (Reader.fresh.read p [q]).1,
    htracks.mode_eq hq hliteral, ?_, fun rest => ?_⟩
  · have hread := (Reader.tracks_fresh
      ((Reader.fresh.read p [q]).1.pending.reverse ++ [q])).literal_read
    rw [htracks.reads, hliteral] at hread
    exact hread.symm
  · have hsame : Reader.fresh.read p (q :: rest) = Reader.fresh.read p [q] :=
      Reader.read_congr (.of_visible (isBlank_of_isQuote hq) _ _) _ p
    rw [segments_eq, Reader.pieces_append, hsame]

/-- a piece that holds a literal is not dropped -/
theorem segment_of_quoted (pending s c : Text) :
    segment (s.reverse ++ [] ++ ((quoted q c).reverse ++ pending))
      = [trim (pending.reverse ++ (quoted q c ++ s))] := by
  have hreverse : (s.reverse ++ [] ++ ((quoted q c).reverse ++ pending)).reverse
      = pending.reverse ++ (quoted q c ++ s) := by simp
  have hne : trim (pending.reverse ++ (quoted q c ++ s)) ≠ [] := by
    rw [quoted_append, trim_append_cons (isBlank_of_isQuote hq)]
    simp
  rw [segment_of_visible, hreverse]
  rwa [hreverse]

include hc

theorem Reader.pieces_quoted {r : Reader} (hm : r.mode = .code .outside) (z : Text) :
    r.pieces (quoted q c ++ z) = (({ r with pending := [] } : Reader).behind
      ((quoted q c).reverse ++ r.pending)).pieces z := by
  rw [Reader.pieces_append, Reader.read_quoted hq hc hm, List.nil_append]
  rfl

include hd

/-- **the pieces are the same**, but for the one that the literal stands in -/
theorem Refilled.segments {t u : Text} (h : Refilled q c d t u) : ∃ before s s' more,
    segments t = before ++ s :: more ∧ CodeChart.segments u = before ++ s' :: more ∧
      Refilled q c d s s' := by
  obtain ⟨p, z, hp⟩ := h
  obtain ⟨before, r, hmode, hpending, hbefore⟩ := exists_reader_at_quote hq hp
  obtain ⟨s, more, _, hs, hs'⟩ := ({ r with pending := [] } : Reader).pieces_behind (t := z)
    fun s x _ => sameBehind_quoted hq c d r.pending _ x
  refine ⟨before, _, _, more, ?_, ?_, (Refilled.intro r.pending.reverse s hpending).trim hq⟩
  · rw [quoted_append, hbefore, ← quoted_append, Reader.pieces_quoted hq hc hmode, hs,
      segment_of_quoted hq]
    rfl
  · rw [quoted_append, hbefore, ← quoted_append, Reader.pieces_quoted hq hd hmode, hs',
      segment_of_quoted hq]
    rfl

/-- **the statements of a line are the same**, but for the one that the literal stands in -/
theorem Refilled.splitLine {t u : Text} (h : Refilled q c d t u) (hn : '\n' ∉ t) :
    List.Forall₂ (Relation.ReflGen (Refilled q c d)) (splitLine t) (CodeChart.splitLine u) := by
  obtain ⟨before, s, s', more, ht, hu, hs⟩ := h.segments hq hc hd
  have hmem : s ∈ CodeChart.segments t := by rw [ht]; simp
  have hline : '\n' ∉ s := fun hm => hn (((segments_covers t).isInfix hmem).subset hm)
  rw [CodeChart.splitLine, CodeChart.splitLine, ht, hu, List.flatMap_append, List.flatMap_append,
    List.flatMap_cons, List.flatMap_cons]
  exact List.rel_append (List.forall₂_refl _)
    (List.rel_append (hs.peelHeaders hq hc hd hline) (List.forall₂_refl _))

end

end CodeChart
