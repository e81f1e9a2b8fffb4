import CodeChart.Proofs.Builder.Unlined
import CodeChart.Proofs.Source.Around
import CodeChart.Proofs.Source.Lines
import CodeChart.Proofs.Text.Split

/-!
# Two lines as one

A statement that has ended leaves nothing behind, so what follows it can as well stand on the same
line.  There are exactly three pairs of characters that are read together across the blanks.

* `brittleSeams`           these pairs; `brittleSeams_matter` says that all of them are needed;
* `Reader.read_seam`       in front of any other text, a text is read as if nothing followed;
* `segments_append_of_rest`, `splitLine_append_of_rest`   a text after which the reader is at
                           rest is cut by itself;
* `map_text_statements`, `statements_texts`   the statements row by row, of any text and of one
                           without comments;
* `same_chart_on_one_line` the flowchart of two lines and that of one line.
-/

namespace CodeChart

/-! ## seams -/

/-- the last character before a seam and the first after it, read together in these cases: the
semicolon of a closing brace, an empty pair of braces, a label with a block -/
def brittleSeams : List (Char × Char) := [('}', ';'), ('{', '}'), (':', '{')]

theorem mem_brittleSeams {c d : Char} : (c, d) ∈ brittleSeams ↔
    (c = '}' ∧ d = ';') ∨ (c = '{' ∧ d = '}') ∨ (c = ':' ∧ d = '{') := by
  simp [brittleSeams]

structure IsSeam (a b : Text) : Prop where
  firm : ∀ c d, lastVisible a = some c → nextVisible b = some d → (c, d) ∉ brittleSeams
  noColon : b.head? ≠ some ':'

theorem head?_blank_append {gap b : Text} (hg : allBlank gap = true) (hb : b.head? ≠ some ':') :
    (gap ++ b).head? ≠ some ':' := by
  cases gap with
  | nil => exact hb
  | cons c gap =>
    have hc : isBlank c = true := List.all_eq_true.1 hg c List.mem_cons_self
    intro hcolon
    rw [Option.some.inj hcolon] at hc
    exact absurd hc (by decide)

/-- the text ahead matters to a brace and to a colon alone -/
theorem Reader.stepCode_congr {c : Char} {a b : Text} (r : Reader)
    (hopen : c = '{' → r.openBrace a = r.openBrace b)
    (hclose : c = '}' → r.closeBrace a = r.closeBrace b)
    (hlabel : c = ':' → endsLabel r.pending a = endsLabel r.pending b) :
    r.stepCode c a = r.stepCode c b := by
  unfold Reader.stepCode
  by_cases ho : c = '{'
  · rw [hopen ho]
    simp only [ho, Char.reduceEq, if_true, false_and]
  by_cases hc : c = '}'
  · rw [hclose hc]
    simp only [hc, Char.reduceEq, if_true, if_false, false_and]
  by_cases hk : c = ':'
  · rw [hlabel hk]
    simp only [hk, Char.reduceEq, if_false]
  · simp only [ho, hc, hk, if_false, false_and]

/-- a character in front of a firm seam, as if nothing followed -/
theorem Reader.step_seam {d : Char} {rest : Text}
    (hfirm : ∀ e, nextVisible rest = some e → (d, e) ∉ brittleSeams)
    (hcolon : d = ':' → rest.head? ≠ some ':') (r : Reader) : r.step d rest = r.step d [] := by
  have hnext : ∀ e, (d, e) ∈ brittleSeams → nextVisible rest ≠ some e := fun e he hr =>
    hfirm e hr he
  have hnil : ∀ e, nextVisible [] ≠ some e := fun e he => by cases he
  have hcode : r.stepCode d rest = r.stepCode d [] := by
    refine r.stepCode_congr ?_ ?_ ?_
    · rintro rfl
      rw [Reader.openBrace, Reader.openBrace, if_neg (hnext '}' (by decide)), if_neg (hnil '}')]
    · rintro rfl
      rw [Reader.closeBrace, Reader.closeBrace]
      simp only [if_neg (hnext ';' (by decide)), if_neg (hnil ';')]
    · rintro rfl
      have hrest : (nextVisible rest != some '{') = true := bne_iff_ne.2 (hnext '{' (by decide))
      rw [endsLabel, endsLabel, hrest, bne_iff_ne.2 (hcolon rfl)]
      rfl
  rw [Reader.step, Reader.step, hcode]
  by_cases hc : d = '}'
  · subst hc
    simp only [if_neg (hnext ';' (by decide)), if_neg (hnil ';')]
  · simp only [if_neg hc]

theorem Reader.read_seam {a b : Text} (h : IsSeam a b) (r : Reader) : r.read a b = r.readAll a := by
  rw [← Reader.read_nil_ahead]
  rcases exists_lastVisible a with ha | ⟨s, d, gap, rfl, hd, hgap⟩
  · obtain ⟨mode, hread⟩ := r.read_blank ha
    rw [hread, hread]
  · have hbefore : r.read s (d :: (gap ++ b)) = r.read s (d :: (gap ++ [])) :=
      r.read_congr (.of_visible hd _ _) s
    have hstep : ∀ r' : Reader, r'.step d (gap ++ b) = r'.step d (gap ++ []) := by
      intro r'
      have hfirm : ∀ e, nextVisible (gap ++ b) = some e → (d, e) ∉ brittleSeams := by
        intro e he
        rw [nextVisible_blank_append hgap] at he
        exact h.firm d e (lastVisible_append_cons hd hgap s) he
      rw [r'.step_seam hfirm fun _ => head?_blank_append hgap h.noColon, List.append_nil,
        r'.step_congr (.of_blank hgap)]
    have hblank : ∀ r' : Reader, r'.read gap b = r'.read gap [] := by
      intro r'
      obtain ⟨mode, hread⟩ := r'.read_blank hgap
      rw [hread, hread]
    rw [Reader.read_append, Reader.read_append, List.cons_append, List.cons_append, hbefore,
      Reader.read_cons, Reader.read_cons, hstep, hblank]

/-! ## a text after which nothing is open -/

/-- no literal, no parenthesis, no initializer list and no statement is open -/
structure Reader.IsAtRest (r : Reader) : Prop where
  mode : r.mode = .code .outside
  parens : r.parens = 0
  initializers : r.initializers = 0
  pending : allBlank r.pending = true

theorem Reader.IsAtRest.pieces {r : Reader} (h : r.IsAtRest) (t : Text) :
    r.pieces t = segments t := by
  have hr : r = Reader.fresh.behind r.pending := by
    obtain ⟨mode, parens, initializers, pending⟩ := r
    obtain ⟨rfl, rfl, rfl, _⟩ := h
    rfl
  rw [hr, Reader.pieces_behind_blank h.pending]
  rfl

theorem segments_append_of_rest {a b : Text} (ha : (Reader.fresh.readAll a).1.IsAtRest)
    (h : IsSeam a b) : segments (a ++ b) = segments a ++ segments b := by
  have hfirst : segments a = (Reader.fresh.readAll a).2 := by
    rw [segments_eq, Reader.pieces, segment_of_allBlank ha.pending, List.append_nil]
  rw [segments_eq, Reader.pieces_append, Reader.read_seam h, ha.pieces, hfirst]

theorem splitLine_append_of_rest {a b : Text} (ha : (Reader.fresh.readAll a).1.IsAtRest)
    (h : IsSeam a b) : splitLine (a ++ b) = splitLine a ++ splitLine b := by
  rw [splitLine, segments_append_of_rest ha h, List.flatMap_append]
  rfl

/-- none of the three pairs is idle -/
theorem brittleSeams_matter : ∀ seam ∈ brittleSeams, ∃ a b : Text,
    (Reader.fresh.readAll a).1.IsAtRest ∧ lastVisible a = some seam.1 ∧
      nextVisible b = some seam.2 ∧ splitLine (a ++ ' ' :: b) ≠ splitLine a ++ splitLine b := by
  have hrest : ∀ a : Text, (Reader.fresh.readAll a).1 = Reader.fresh →
      (Reader.fresh.readAll a).1.IsAtRest := by
    intro a ha
    rw [ha]
    exact ⟨rfl, rfl, rfl, rfl⟩
  intro seam hseam
  simp only [brittleSeams, List.mem_cons, List.not_mem_nil, or_false] at hseam
  rcases hseam with rfl | rfl | rfl
  · exact ⟨"\x7d".toList, ";".toList, hrest _ rfl, rfl, rfl, by decide +kernel⟩
  · exact ⟨"f() \x7b".toList, "\x7d".toList, hrest _ rfl, rfl, rfl, by decide +kernel⟩
  · exact ⟨"case 1:".toList, "\x7b".toList, hrest _ rfl, rfl, rfl, by decide +kernel⟩

/-! ## texts without comments -/

/-- the text outside block comments -/
def uncommented (src : Text) : Text := (dropComments (locate 1 src)).map Located.char

theorem map_text_statements (src : Text) : (statements src).map Statement.text
    = (splitOn '\n' (uncommented src)).flatMap fun row => splitLine (cutLineComment row) := by
  have hone : ∀ s : Strip, s.logicalLine.statements.map Statement.text
      = splitLine (cutLineComment s.text) := fun s => by
    rw [LogicalLine.map_text_statements, splitLine_trim]
    rfl
  rw [statements, List.map_flatMap, logicalLines_eq, List.flatMap_map, uncommented, ← strips_text 1,
    List.flatMap_map]
  exact List.flatMap_congr fun s _ => hone s

theorem statements_texts {src : Text} (hblock : hasPair '/' '*' src = false)
    (hline : hasPair '/' '/' src = false) :
    (statements src).map Statement.text = (splitOn '\n' src).flatMap splitLine := by
  rw [map_text_statements, uncommented, dropComments_locate hblock, map_char_locate]
  refine List.flatMap_congr fun row hrow => ?_
  rw [cutLineComment_of_no_mark]
  rw [Bool.eq_false_iff, Ne, hasPair_iff] at hline ⊢
  exact fun h => hline (h.trans (isInfix_of_mem_splitOn hrow))

/-! ## one line or two -/

/-- a line without comments -/
structure IsPlainLine (t : Text) : Prop where
  oneLine : '\n' ∉ t
  noBlockComment : ¬ commentOpener <:+: t
  noLineComment : ¬ "//".toList <:+: t

/-- **what follows a finished statement may stand on its line**: unless the two texts meet at a
brittle seam, they are cut into the same statements, and the flowchart and the final state are the
same but for the line numbers -/
theorem same_chart_on_one_line {a b : Text} (ha : IsPlainLine a) (hb : IsPlainLine b)
    (hrest : (Reader.fresh.readAll a).1.IsAtRest)
    (hseam : ∀ c d, lastVisible a = some c → nextVisible b = some d → (c, d) ∉ brittleSeams) :
    splitLine (a ++ ' ' :: b) = splitLine a ++ splitLine b ∧
    (Builder.ofSource (a ++ ' ' :: b)).withoutLines
      = (Builder.ofSource (a ++ '\n' :: b)).withoutLines := by
  have hsplit : splitLine (a ++ ' ' :: b) = splitLine a ++ splitLine b := by
    have hblank : segments (' ' :: b) = segments b :=
      @segments_blank_append [' '] (by decide) b
    have hfirm : IsSeam a (' ' :: b) := by
      refine ⟨fun c d hc hd => hseam c d hc ?_, by simp⟩
      have hvisible := nextVisible_blank_append (show allBlank [' '] = true by decide) b
      exact hvisible ▸ hd
    rw [splitLine_append_of_rest hrest hfirm, splitLine, splitLine, splitLine, hblank]
  have hpair : ∀ c, ¬ ['/', c] <:+: a → ¬ ['/', c] <:+: b → ∀ gap : Char, gap ≠ '/' → gap ≠ c →
      hasPair '/' c (a ++ gap :: b) = false := by
    intro c hac hbc gap hgap hgc
    rw [hasPair_append_cons hgap hgc, Bool.eq_false_iff.2 (fun h => hac (hasPair_iff.1 h)),
      Bool.eq_false_iff.2 (fun h => hbc (hasPair_iff.1 h))]
    rfl
  refine ⟨hsplit, Builder.withoutLines_ofSource_congr ?_⟩
  have hone : '\n' ∉ a ++ ' ' :: b := by
    rw [List.mem_append, List.mem_cons]
    rintro (h | h | h)
    · exact ha.oneLine h
    · exact absurd h (by decide)
    · exact hb.oneLine h
  rw [statements_texts, statements_texts, List.splitOn_append_cons_self_of_not_mem ha.oneLine,
    List.splitOn_eq_singleton hb.oneLine, List.splitOn_eq_singleton hone]
  · rw [List.flatMap_singleton, hsplit]
    simp
  · exact hpair '*' ha.noBlockComment hb.noBlockComment '\n' (by decide) (by decide)
  · exact hpair '/' ha.noLineComment hb.noLineComment '\n' (by decide) (by decide)
  · exact hpair '*' ha.noBlockComment hb.noBlockComment ' ' (by decide) (by decide)
  · exact hpair '/' ha.noLineComment hb.noLineComment ' ' (by decide) (by decide)

/-- an `if` and the statement in it, on two lines and on one -/
theorem same_chart_for_block :
    splitLine ("if (a) \x7b".toList ++ ' ' :: "x(); \x7d".toList)
      = splitLine "if (a) \x7b".toList ++ splitLine "x(); \x7d".toList ∧
    (Builder.ofSource ("if (a) \x7b".toList ++ ' ' :: "x(); \x7d".toList)).withoutLines
      = (Builder.ofSource ("if (a) \x7b".toList ++ '\n' :: "x(); \x7d".toList)).withoutLines := by
  have hplain : IsPlainLine "if (a) \x7b".toList ∧ IsPlainLine "x(); \x7d".toList :=
    ⟨⟨by decide, by decide, by decide⟩, ⟨by decide, by decide, by decide⟩⟩
  have hread : (Reader.fresh.readAll "if (a) \x7b".toList).1 = Reader.fresh := by decide +kernel
  refine same_chart_on_one_line hplain.1 hplain.2 ?_ ?_
  · rw [hread]
    exact ⟨rfl, rfl, rfl, rfl⟩
  · intro c d hc hd
    have hbrace : lastVisible "if (a) \x7b".toList = some '{' := by decide
    have hletter : nextVisible "x(); \x7d".toList = some 'x' := by decide
    rw [hbrace] at hc
    rw [hletter] at hd
    rw [← Option.some.inj hc, ← Option.some.inj hd]
    decide

end CodeChart
