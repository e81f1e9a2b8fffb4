import CodeChart.Proofs.Builder.Outline
import CodeChart.Proofs.Source.Atomic
import CodeChart.Proofs.Source.Jump

/-!
# Closing statements

A statement that starts with a closing brace is this brace, or the brace and the next semicolon
with the blanks between them.  The builder takes braces and semicolons off its start and looks for
blanks only then, so a semicolon behind a blank is left.

* `IsClosing`             the statements that start with a closing brace;
* `isClosing_of_mem_splitLine`   a line is cut into no others;
* `Builder.Closes`        the braces leave nothing of a statement and it leaves one scope;
* `Builder.closes_iff`    so does a closing statement if and only if it has no blanks; otherwise the
                          semicolon gets a node.
-/

namespace CodeChart

/-! ## how a closing brace is cut -/

/-- a closing brace, alone or with the semicolon that belongs to it -/
def IsClosing (t : Text) : Prop :=
  t = ['}'] ∨ ∃ gap, allBlank gap = true ∧ t = '}' :: (gap ++ [';'])

/-- a closing brace ends what stands in front of it, and the rest is cut as if it stood alone -/
theorem Reader.pieces_close (pending rest : Text) : (Reader.between pending).pieces ('}' :: rest)
    = segment pending ++ segments ('}' :: rest) := by
  have hstep : ∀ pending, (Reader.between pending).step '}' rest
      = (Reader.between pending).closeBrace rest := fun _ => rfl
  rw [segments_eq, Reader.pieces_cons, hstep]
  show _ = segment pending ++ (Reader.between []).pieces ('}' :: rest)
  rw [Reader.pieces_cons, hstep]
  simp only [Reader.closeBrace]
  split
  · rfl
  · exact List.append_assoc _ _ _

theorem isClosing_of_segments {rest : Text} (h : segments ('}' :: rest) = ['}' :: rest]) :
    IsClosing ('}' :: rest) := by
  have hstep : Reader.fresh.step '}' rest = Reader.fresh.closeBrace rest := rfl
  rw [segments_eq, Reader.pieces_cons, hstep] at h
  simp only [Reader.closeBrace] at h
  split at h
  · rename_i hnext
    obtain ⟨gap, more, hgap, rfl, hwait⟩ :=
      Reader.pieces_awaited (r := ⟨.closer, 0, 0, ['}']⟩) rfl hnext
    have hpiece : segment (';' :: (gap.reverse ++ ['}'])) = ['}' :: (gap ++ [';'])] := by
      have hrev : ';' :: (gap.reverse ++ ['}']) = ('}' :: (gap ++ [';'])).reverse := by simp
      rw [hrev, segment_reverse (trim_of_visible_ends (by decide) (by decide) gap) (by simp)]
    have hfirst : Reader.pieces ⟨.closer, 0, 0, gap.reverse ++ ['}']⟩ (';' :: more)
        = ['}' :: (gap ++ ';' :: more)] := hwait.symm.trans h
    have hstep : Reader.step ⟨.closer, 0, 0, gap.reverse ++ ['}']⟩ ';' more
        = (Reader.fresh, segment (';' :: (gap.reverse ++ ['}']))) := rfl
    rw [Reader.pieces_cons, hstep, hpiece] at hfirst
    obtain ⟨hhead, _⟩ := List.cons.inj hfirst
    exact .inr ⟨gap, hgap, hhead.symm⟩
  · have hfirst : ['}'] :: Reader.fresh.pieces rest = ['}' :: rest] := h
    exact .inl (List.cons.inj hfirst).1.symm

/-! ## bodies -/

/-- a closing brace does not belong to a piece that something stands in front of -/
theorem IsLeadIn.head?_body {w body : Text} (hw : IsLeadIn w)
    (h : segments (w ++ body) = [w ++ body]) : body.head? ≠ some '}' := by
  intro hhead
  obtain ⟨rest, rfl⟩ := List.head?_eq_some_iff.1 hhead
  have hread : Reader.fresh.read w ('}' :: rest) = (Reader.between w.reverse, []) := by
    have hkept := hw.kept [] ('}' :: rest)
    rwa [List.append_nil] at hkept
  have hne : trim w.reverse.reverse ≠ [] := by
    obtain ⟨c, r, rfl, hc⟩ := hw.visible
    rw [List.reverse_reverse, trim_cons_of_visible hc]
    exact List.cons_ne_nil _ _
  rw [segments_eq, Reader.pieces_append, hread, Reader.pieces_close, segment_of_visible hne,
    List.reverse_reverse] at h
  obtain ⟨hfirst, _⟩ := List.cons.inj h
  have hlength := congrArg List.length hfirst
  have hle := length_trim_le w
  rw [List.length_append, List.length_cons] at hlength
  omega

/-- the body of an `else`, whatever lines the text has -/
theorem exists_else_of_trimmed {t body : Text} (ht : IsTrimmed t) (h : elseBody? t = some body) :
    ∃ gap, allBlank gap = true ∧ gap ≠ [] ∧ trimLeft body = body ∧
      t = "else".toList ++ gap ++ body := by
  simp only [elseBody?] at h
  split at h
  · cases h
  · rename_i u hu
    split at h
    · cases h
    · rename_i hempty
      obtain ⟨gap, hgap, hne, hleft, rfl⟩ := afterElse?_eq_some_iff.1 hu
      obtain ⟨tail, htail, hbody⟩ := singleLine?_eq_append h
      have hvisible : trimLeft u ≠ [] := by
        intro hnil
        rw [← hleft, hnil] at hempty
        exact hempty rfl
      rw [← List.append_assoc] at ht
      obtain ⟨rfl, _⟩ := ht.of_append htail hvisible (hleft.trans hbody)
      rw [List.append_nil] at hbody
      subst hbody
      exact ⟨gap, hgap, hne, hleft, (List.append_assoc _ _ _).symm⟩

/-- no header is peeled off a closing brace -/
theorem head?_of_mem_peelHeaders {t : Text} (ht : IsTrimmed t) (hseg : segments t = [t])
    (hhead : t.head? ≠ some '}') : ∀ p ∈ peelHeaders t, p.head? ≠ some '}' := by
  -- a label is not peeled, and any other body is one piece by itself
  have hbody : ∀ {w body : Text}, IsLeadIn w → IsTrimmed body →
      segments (w ++ body) = [w ++ body] →
      (segments body = [body] → body.head? ≠ some '}' →
        ∀ p ∈ peelHeaders body, p.head? ≠ some '}') →
      ∀ p ∈ peelHeaders body, p.head? ≠ some '}' := by
    intro w body hw htrim hone ih
    have hne := hw.head?_body hone
    by_cases hlabel : startsLabel body = true
    · intro p hp
      rw [peelHeaders_of_label hlabel] at hp
      rwa [List.mem_singleton.1 hp]
    · refine ih (hw.segments_body ?_ htrim hone) hne
      rw [htrim.trimLeft_eq, Bool.eq_false_iff.2 hlabel]
  induction t using peelHeaders.induct with
  | case1 t body h ih =>
    have htrim : IsTrimmed body := (elseBody?_covers ht h).isTrimmed (by simp)
    obtain ⟨gap, hgap, hne, _, rfl⟩ := exists_else_of_trimmed ht h
    rw [peelHeaders_of_else h]
    intro p hp
    rcases List.mem_cons.1 hp with rfl | hp
    · decide
    · exact hbody (isLeadIn_else hgap hne) htrim hseg (ih htrim) p hp
  | case2 t he header body h ih =>
    have htrim : IsTrimmed body := (conditionBody?_covers ht h).isTrimmed (by simp)
    rw [peelHeaders_of_condition he h]
    obtain ⟨lead, g, rest, hlead, hg, _, rfl, rfl, rfl⟩ := conditionBody?_eq_some h
    obtain ⟨gap, hgap, hrest⟩ := exists_trimLeft rest
    have hend : trim rest = trimLeft rest := by
      rw [header_append] at ht
      exact ht.trim_eq_trimLeft htrim.nonempty
    have hsplit : lead ++ '(' :: (g ++ ')' :: rest)
        = lead ++ '(' :: (g ++ ')' :: gap) ++ trim rest := by
      rw [hend]
      conv_lhs => rw [hrest]
      simp
    rw [hsplit] at hseg
    intro p hp
    rcases List.mem_cons.1 hp with rfl | hp
    · obtain ⟨c, r, rfl, _⟩ := hlead.visible
      exact hhead
    · exact hbody (hlead.isLeadIn hg hgap) htrim hseg (ih htrim) p hp
  | case3 t he h =>
    rw [peelHeaders_of_none he h]
    intro p hp
    rwa [List.mem_singleton.1 hp]

theorem peelHeaders_of_close (rest : Text) : peelHeaders ('}' :: rest) = ['}' :: rest] :=
  peelHeaders_of_none rfl rfl

theorem isClosing_of_mem_splitLine {line s : Text} (hs : s ∈ splitLine line)
    (hhead : s.head? = some '}') : IsClosing s := by
  obtain ⟨seg, hseg, hpeeled⟩ := List.mem_flatMap.1 hs
  have htrim : IsTrimmed seg := (segments_covers line).isTrimmed hseg
  have hone : segments seg = [seg] := segments_of_mem_segments hseg
  by_cases hclose : seg.head? = some '}'
  · obtain ⟨rest, rfl⟩ := List.head?_eq_some_iff.1 hclose
    rw [peelHeaders_of_close] at hpeeled
    rw [List.mem_singleton.1 hpeeled]
    exact isClosing_of_segments hone
  · exact absurd hhead (head?_of_mem_peelHeaders htrim hone hclose s hpeeled)

/-! ## what the builder leaves of it -/

/-- nothing is left of the statement and one scope is left, but not the bottom one -/
structure Builder.Closes (b : Builder) (s : Statement) : Prop where
  braces : b.braces s.text = (b.pop, none)
  feed : b.feed s = b.pop
  bottom : b.depth = 1 → b.feed s = b

theorem Builder.closes_of_isCloser {b : Builder} (hi : b.ignored = 0) {s : Statement}
    (h : IsCloser s.text) : b.Closes s := by
  have hfeed := Builder.feed_closer hi h
  obtain ⟨hd, hskip, hn, hc, ha⟩ := h.facts
  refine ⟨?_, hfeed, fun hdepth => hfeed.trans (Builder.pop_of_depth hdepth)⟩
  simp [Builder.braces, hd, hskip, hn, hc, ha, hi]

/-- the blanks keep the semicolon from being taken off -/
theorem afterClosers_spaced {gap : Text} (hgap : allBlank gap = true) (hne : gap ≠ []) :
    afterClosers ('}' :: (gap ++ [';'])) = [';'] := by
  obtain ⟨c, more, rfl⟩ := List.exists_cons_of_ne_nil hne
  have hblank : isBlank c = true := List.all_eq_true.1 hgap c List.mem_cons_self
  have hstop : ¬ (c = '}' ∨ c = ';') := by
    rintro (rfl | rfl) <;> exact absurd hblank (by decide)
  have hdrop : ('}' :: (c :: more ++ [';'])).dropWhile (fun c => c = '}' ∨ c = ';')
      = c :: more ++ [';'] := by
    rw [List.dropWhile_cons_of_pos (by decide), List.cons_append,
      List.dropWhile_cons_of_neg (by simpa using hstop)]
  rw [afterClosers, hdrop, trim_blank_append hgap]
  rfl

theorem Builder.braces_spaced {b : Builder} (hi : b.ignored = 0) {gap : Text}
    (hgap : allBlank gap = true) (hne : gap ≠ []) :
    b.braces ('}' :: (gap ++ [';'])) = (b.pop, some [';']) := by
  have hdeclares : declares ('}' :: (gap ++ [';'])) = false := rfl
  have hskipped : isSkipped ('}' :: (gap ++ [';'])) = false := rfl
  have hcloses : closesScope ('}' :: (gap ++ [';'])) = true := rfl
  simp [Builder.braces, hdeclares, hskipped, hcloses, afterClosers_spaced hgap hne, hi]

/-- **a statement that starts with a closing brace only leaves a scope if and only if no blanks
stand in it**; behind blanks its semicolon is drawn as a statement -/
theorem Builder.closes_iff {line t : Text} (ht : t ∈ splitLine line) (hhead : t.head? = some '}')
    {b : Builder} (hi : b.ignored = 0) (n : Nat) :
    (b.Closes ⟨t, n⟩ ↔ IsCloser t) ∧
    (¬ IsCloser t → ∃ gap, allBlank gap = true ∧ gap ≠ [] ∧ t = '}' :: (gap ++ [';']) ∧
      b.braces t = (b.pop, some [';']) ∧ b.feed ⟨t, n⟩ = b.pop.add .plain [';'] n) := by
  by_cases hcloser : IsCloser t
  · exact ⟨iff_of_true (Builder.closes_of_isCloser hi hcloser) hcloser,
      fun hno => absurd hcloser hno⟩
  have hspaced : ∃ gap, allBlank gap = true ∧ gap ≠ [] ∧ t = '}' :: (gap ++ [';']) := by
    rcases isClosing_of_mem_splitLine ht hhead with hbrace | ⟨gap, hgap, hshape⟩
    · exact absurd (.inl hbrace) hcloser
    · refine ⟨gap, hgap, ?_, hshape⟩
      rintro rfl
      exact hcloser (.inr hshape)
  obtain ⟨gap, hgap, hne, rfl⟩ := hspaced
  have hbraces := Builder.braces_spaced hi hgap hne
  refine ⟨iff_of_false ?_ hcloser, fun _ => ⟨gap, hgap, hne, rfl, hbraces, ?_⟩⟩
  · intro hcloses
    have hnone := hcloses.braces
    rw [hbraces] at hnone
    cases hnone
  · have hkind : Kind.ofText [';'] = .plain := by decide
    rw [Builder.feed, hbraces]
    show b.pop.add (Kind.ofText [';']) [';'] n = _
    rw [hkind]

/-- behind a call in the line of the brace -/
theorem closes_in_function :
    ['}', ';'] ∈ splitLine "f(); \x7d;".toList ∧ (['}', ';'] : Text).head? = some '}' ∧
    openFunction.ignored = 0 ∧ openFunction.Closes ⟨['}', ';'], 3⟩ := by
  have hmem : ['}', ';'] ∈ splitLine "f(); \x7d;".toList := by decide +kernel
  have hi : openFunction.ignored = 0 := by decide +kernel
  exact ⟨hmem, rfl, hi, (Builder.closes_iff hmem rfl hi 3).1.2 (.inr rfl)⟩

/-- a semicolon that becomes the only node of a chart -/
theorem spacedCloser_draws :
    "\x7d ;".toList ∈ splitLine "\x7d ;".toList ∧ "\x7d ;".toList.head? = some '}' ∧
    Builder.fresh.ignored = 0 ∧ ¬ Builder.fresh.Closes ⟨"\x7d ;".toList, 1⟩ ∧
    (Builder.ofSource "\x7d ;".toList).nodes
      = [⟨.node 0, [';'], .standard, some .plain, 1⟩] := by
  have hbraces : Builder.fresh.braces "\x7d ;".toList = (Builder.fresh, some [';']) := by
    decide +kernel
  refine ⟨by decide +kernel, rfl, rfl, ?_, by decide +kernel⟩
  intro hcloses
  have hnone := hcloses.braces
  rw [hbraces] at hnone
  cases hnone

end CodeChart
