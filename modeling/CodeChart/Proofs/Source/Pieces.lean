import CodeChart.Proofs.Source.Gluing
import CodeChart.Proofs.Source.Parenthesis
import CodeChart.Source.Statement
import Mathlib.Data.List.Forall2

/-!
# Statements as pieces of their lines

* `PendingStep`           what one character does to the pending text: it is kept, it ends a piece,
                          or it comes after a piece and may be one by itself;
* `Reader.pendingStep_step`   a reader does nothing else, whatever its state;
* `Reader.readAll_covers` so the pieces that it cuts cover what it has read;
* `peelHeaders_covers`    peeling the headers off a statement cuts it into pieces as well;
* `splitLine_covers`      the statements of a line cover it;
* `LogicalLine.piece_of_mem`   a statement is a trimmed piece of its line;
* `statements_cover`      the statements of a source text lose, double and reorder nothing.
-/

namespace CodeChart

/-! ## one character -/

inductive PendingStep (pending : Text) (c : Char) : Text → List Text → Prop
  | keep : PendingStep pending c (c :: pending) []
  | cut : PendingStep pending c [] (segment (c :: pending))
  | part : PendingStep pending c [c] (segment pending)
  | isolate : PendingStep pending c [] (segment pending ++ segment [c])

theorem Reader.pendingStep_openBrace (r : Reader) (rest : Text) :
    PendingStep r.pending '{' (r.openBrace rest).1.pending (r.openBrace rest).2 := by
  unfold Reader.openBrace
  split
  · exact .keep
  · split
    · exact .keep
    · exact .cut

theorem Reader.pendingStep_closeBrace (r : Reader) (rest : Text) :
    PendingStep r.pending '}' (r.closeBrace rest).1.pending (r.closeBrace rest).2 := by
  simp only [Reader.closeBrace]
  split
  · exact .part
  · exact .isolate

theorem Reader.pendingStep_stepCode (r : Reader) (c : Char) (rest : Text) :
    PendingStep r.pending c (r.stepCode c rest).1.pending (r.stepCode c rest).2 := by
  unfold Reader.stepCode
  split
  · exact .keep
  split
  · exact .keep
  split
  · exact .keep
  split
  · exact .keep
  split
  · split
    · exact .keep
    · split <;> exact .keep
  split
  · rename_i hc
    subst hc
    exact r.pendingStep_openBrace rest
  split
  · rename_i hc
    subst hc
    exact r.pendingStep_closeBrace rest
  split
  · exact .cut
  split
  · exact .cut
  · exact .keep

theorem Reader.pendingStep_step (r : Reader) (c : Char) (rest : Text) :
    PendingStep r.pending c (r.step c rest).1.pending (r.step c rest).2 := by
  unfold Reader.step
  split
  · exact r.pendingStep_stepCode c rest
  · exact .keep
  · split
    · simp only
      split
      · exact .keep
      · exact .cut
    · exact .keep
  · split
    · exact .cut
    · exact .keep

/-! ## the pieces of a line -/

theorem segment_covers (pending : Text) : Covers (segment pending) pending.reverse := by
  obtain ⟨before, after, hb, ha, ht⟩ := exists_trim pending.reverse
  simp only [segment]
  split
  · rename_i he
    rw [ht, List.isEmpty_iff.1 he, List.nil_append]
    exact .nil (allBlank_append hb ha)
  · rename_i he
    have hne : trim pending.reverse ≠ [] := fun h => he (List.isEmpty_iff.2 h)
    conv_rhs => rw [ht]
    exact ((Covers.single (isTrimmed_trim hne)).append_blank ha).blank_append hb

/-- the pieces cover the text up to what is pending -/
theorem PendingStep.covers {pending pending' : Text} {c : Char} {done : List Text}
    (h : PendingStep pending c pending' done) :
    ∃ read, Covers done read ∧ (c :: pending).reverse = read ++ pending'.reverse := by
  cases h with
  | keep => exact ⟨[], .nil rfl, rfl⟩
  | cut => exact ⟨_, segment_covers _, (List.append_nil _).symm⟩
  | part => exact ⟨_, segment_covers pending, by simp⟩
  | isolate => exact ⟨_, (segment_covers pending).append (segment_covers [c]), by simp⟩

theorem Reader.readAll_covers (r : Reader) (t : Text) :
    Covers ((r.readAll t).2 ++ segment (r.readAll t).1.pending) (r.pending.reverse ++ t) := by
  induction t generalizing r with
  | nil =>
    rw [Reader.readAll_nil, List.nil_append, List.append_nil]
    exact segment_covers r.pending
  | cons c t ih =>
    obtain ⟨read, hread, hpending⟩ := (r.pendingStep_step c t).covers
    have hall : r.pending.reverse ++ c :: t
        = read ++ ((r.step c t).1.pending.reverse ++ t) := by
      rw [← List.append_assoc, ← hpending]
      simp
    rw [Reader.readAll_cons, hall, List.append_assoc]
    exact hread.append (ih (r.step c t).1)

theorem segments_covers (line : Text) : Covers (segments line) line :=
  Reader.fresh.readAll_covers line

/-! ## headers -/

/-- the second of two pieces may be cut again -/
theorem Covers.refine_second {a b t : Text} {ps : List Text} (h : Covers [a, b] t)
    (hp : Covers ps b) : Covers (a :: ps) t := by
  cases h with
  | cons hg ha h =>
    cases h with
    | cons hg' _ h =>
      cases h with
      | nil hr => exact .cons hg ha ((hp.append_blank hr).blank_append hg')

/-- behind the blanks at its start, the end of a trimmed text is trimmed -/
theorem IsTrimmed.of_append {a b gap : Text} (h : IsTrimmed (a ++ b)) (hg : allBlank gap = true)
    (hb : trimLeft b ≠ []) {body : Text} (hbody : trimLeft b = body ++ gap) :
    gap = [] ∧ IsTrimmed body := by
  obtain ⟨lead, _, hlead⟩ := exists_trimLeft b
  obtain ⟨c, hc, hcv⟩ := (isTrimmed_iff.1 h).2
  rw [hlead, hbody, ← List.append_assoc, ← List.append_assoc] at hc
  have hgap : gap = [] := by
    by_contra hne
    obtain ⟨r, d, rfl⟩ := (List.eq_nil_or_concat' gap).resolve_left hne
    rw [← List.append_assoc, List.getLast?_concat] at hc
    have hd := List.all_eq_true.1 hg d (List.mem_append_right r (List.mem_singleton_self d))
    rw [Option.some.inj hc, hcv] at hd
    cases hd
  subst hgap
  rw [List.append_nil] at hbody hc
  refine ⟨rfl, isTrimmed_iff.2 ⟨?_, c, ?_, hcv⟩⟩
  · have hhead := List.head?_dropWhile_not isBlank b
    rw [show b.dropWhile isBlank = body from hbody] at hhead
    cases body with
    | nil => exact absurd hbody hb
    | cons d r => exact ⟨d, rfl, hhead⟩
  · rw [List.getLast?_append_of_ne_nil _ (hbody ▸ hb)] at hc
    exact hc

/-- so nothing is trimmed there -/
theorem IsTrimmed.trim_eq_trimLeft {a b : Text} (h : IsTrimmed (a ++ b)) (hb : trim b ≠ []) :
    trim b = trimLeft b := by
  obtain ⟨after, hafter, hright⟩ := exists_trimRight (trimLeft b)
  have hne : trimLeft b ≠ [] := by
    intro hnil
    rw [trim, hnil] at hb
    exact hb rfl
  obtain ⟨rfl, _⟩ := h.of_append hafter hne hright
  rw [hright, List.append_nil, trim]

theorem afterElse?_eq_some {t body : Text} (h : afterElse? t = some body) :
    ∃ rest, t = "else".toList ++ rest ∧ body = trimLeft rest := by
  simp only [afterElse?] at h
  split at h
  · rename_i hp
    simp only [Bool.and_eq_true, List.isPrefixOf_iff_prefix] at hp
    obtain ⟨⟨rest, rfl⟩, _⟩ := hp
    simp only [List.drop_left, Option.some.injEq] at h
    exact ⟨rest, rfl, h.symm⟩
  · cases h

theorem singleLine?_eq_append {t body : Text} (h : singleLine? t = some body) :
    ∃ gap, allBlank gap = true ∧ t = body ++ gap := by
  have hsplit := List.takeWhile_append_dropWhile (p := fun c => c ≠ '\n') (l := t)
  simp only [singleLine?] at h
  split at h
  · exact ⟨[], rfl, by rw [List.append_nil, Option.some.inj h]⟩
  · rename_i hd
    refine ⟨['\n'], rfl, ?_⟩
    rw [← Option.some.inj h, ← hd]
    exact hsplit.symm
  · cases h

theorem elseBody?_covers {t body : Text} (ht : IsTrimmed t) (h : elseBody? t = some body) :
    Covers ["else".toList, body] t := by
  simp only [elseBody?] at h
  split at h
  · cases h
  · rename_i u hu
    split at h
    · cases h
    · rename_i hempty
      obtain ⟨rest, rfl, rfl⟩ := afterElse?_eq_some hu
      obtain ⟨gap, hgap, hrest⟩ := exists_trimLeft rest
      obtain ⟨tail, htail, hbody⟩ := singleLine?_eq_append h
      have hne : trimLeft rest ≠ [] := by
        intro hnil
        simp [hnil] at hempty
      obtain ⟨rfl, htrimmed⟩ := ht.of_append htail hne hbody
      rw [hrest, hbody]
      exact .cons_append ⟨by decide, by decide⟩ (.cons hgap htrimmed (.nil rfl))

theorem conditionBody?_covers {t header body : Text} (ht : IsTrimmed t)
    (h : conditionBody? t = some (header, body)) : Covers [header, body] t := by
  simp only [conditionBody?] at h
  split at h
  · split at h
    · cases h
    · rename_i i hi
      split at h
      · cases h
      · rename_i hempty
        simp only [Option.some.injEq, Prod.mk.injEq] at h
        obtain ⟨rfl, rfl⟩ := h
        obtain ⟨before, after, hb, ha, hdrop⟩ := exists_trim (t.drop (i + 1))
        have hheader : IsTrimmed (t.take (i + 1)) := by
          rw [isTrimmed_iff]
          constructor
          · rw [List.head?_take, if_neg (Nat.succ_ne_zero i)]
            exact (isTrimmed_iff.1 ht).1
          · refine ⟨')', ?_, by decide⟩
            rw [List.take_add_one, getElem?_closingParen? hi]
            exact List.getLast?_concat
        have hne : trim (t.drop (i + 1)) ≠ [] := by
          intro hnil
          simp [hnil] at hempty
        have hall := Covers.cons_append hheader (.cons hb (isTrimmed_trim hne) (.nil ha))
        rwa [← hdrop, List.take_append_drop] at hall
  · cases h

theorem peelHeaders_covers {t : Text} (ht : IsTrimmed t) : Covers (peelHeaders t) t := by
  induction t using peelHeaders.induct with
  | case1 t body h ih =>
    have hc := elseBody?_covers ht h
    rw [peelHeaders_of_else h]
    exact hc.refine_second (ih (hc.isTrimmed (by simp)))
  | case2 t he header body h ih =>
    have hc := conditionBody?_covers ht h
    rw [peelHeaders_of_condition he h]
    exact hc.refine_second (ih (hc.isTrimmed (by simp)))
  | case3 t he h =>
    rw [peelHeaders_of_none he h]
    exact .single ht

theorem splitLine_covers (line : Text) : Covers (splitLine line) line :=
  (segments_covers line).refine fun _ hp => peelHeaders_covers hp

/-! ## the statements of a source text -/

theorem newline_not_mem_logicalLine {src : Text} {l : LogicalLine} (h : l ∈ logicalLines src) :
    '\n' ∉ l.text := by
  rw [logicalLines_eq] at h
  obtain ⟨s, hs, rfl⟩ := List.mem_map.1 h
  have hm := List.mem_map_of_mem (f := Strip.text) hs
  rw [strips_text] at hm
  exact not_mem_of_mem_splitOn hm

theorem not_isInfix_cutLineComment (t : Text) : ¬ "//".toList <:+: cutLineComment t := by
  induction t with
  | nil => decide
  | cons c t ih =>
    rw [cutLineComment]
    split
    · decide
    · rename_i hc
      rw [List.infix_cons_iff]
      rintro (hp | hi)
      · -- the slashes stand in front of `t` then, since the cut keeps a prefix of it
        have hpair : ['/', '/'] <+: c :: cutLineComment t := hp
        obtain ⟨rfl, hslash⟩ := List.cons_prefix_cons.1 hpair
        have hcut := cutLineComment_prefix t
        obtain ⟨r, hr⟩ := hslash.trans hcut
        exact hc ⟨rfl, by rw [← hr]; rfl⟩
      · exact ih hi

theorem LogicalLine.statements_covers (l : LogicalLine) :
    Covers (l.statements.map Statement.text) (trim (cutLineComment l.text)) := by
  rw [l.map_text_statements]
  exact splitLine_covers _

theorem LogicalLine.piece_of_mem {l : LogicalLine} {s : Statement} (h : s ∈ l.statements) :
    IsTrimmed s.text ∧ s.text <:+: cutLineComment l.text := by
  have hm := List.mem_map_of_mem (f := Statement.text) h
  exact ⟨l.statements_covers.isTrimmed hm, (l.statements_covers.isInfix hm).trans (trim_isInfix _)⟩

theorem LogicalLine.subset_of_mem {l : LogicalLine} {s : Statement} (h : s ∈ l.statements) :
    s.text ⊆ l.text := by
  have hcut := cutLineComment_prefix l.text
  exact List.Subset.trans (l.piece_of_mem h).2.subset hcut.subset

theorem LogicalLine.exists_visible {l : LogicalLine} {s : Statement} (h : s ∈ l.statements) :
    ∃ c ∈ l.text, isBlank c = false := by
  obtain ⟨⟨c, hc, hv⟩, _⟩ := isTrimmed_iff.1 (l.piece_of_mem h).1
  exact ⟨c, l.subset_of_mem h (List.mem_of_mem_head? hc), hv⟩

/-- **the statements lose, double and reorder nothing**: without blanks they are the lines up to
their comments; they come in groups, one for each line, and those of a group are successive pieces
of the line; every statement is a trimmed text on one line and without a comment -/
theorem statements_cover (src : Text) :
    visible ((statements src).flatMap Statement.text)
      = visible ((logicalLines src).flatMap fun l => cutLineComment l.text) ∧
    (∃ groups : List (List Statement), statements src = groups.flatten ∧
      List.Forall₂ (fun l group => Covers (group.map Statement.text) (trim (cutLineComment l.text)))
        (logicalLines src) groups) ∧
    ∀ s ∈ statements src,
      s.text ≠ [] ∧ trim s.text = s.text ∧ '\n' ∉ s.text ∧ ¬ "//".toList <:+: s.text := by
  refine ⟨?_, ⟨(logicalLines src).map LogicalLine.statements, rfl, ?_⟩, ?_⟩
  · rw [statements, List.flatMap_assoc, visible_flatMap, visible_flatMap]
    congr 1
    funext l
    have hl := l.statements_covers.visible_eq
    rwa [← List.flatMap_def, visible_trim] at hl
  · rw [List.forall₂_map_right_iff, List.forall₂_same]
    exact fun l _ => l.statements_covers
  · intro s hs
    obtain ⟨l, hl, hsl⟩ := List.mem_flatMap.1 hs
    obtain ⟨htrimmed, hcut⟩ := l.piece_of_mem hsl
    refine ⟨htrimmed.nonempty, htrimmed.trimmed, ?_, ?_⟩
    · intro hn
      exact newline_not_mem_logicalLine hl (l.subset_of_mem hsl hn)
    · intro hslash
      exact not_isInfix_cutLineComment l.text (hslash.trans hcut)

end CodeChart
