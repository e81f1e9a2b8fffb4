import CodeChart.Proofs.Builder.Outline
import CodeChart.Proofs.Source.FirstWord

/-!
# Words that only begin like a keyword

All tables of words but one are read by whole words.  A text that starts with `template` is skipped
even if a longer word starts there.

* `reservedWords`, `IsFreeStart`   the words of all tables, and a text whose first word is another;
* `IsFreeStart.isOrdinary`  nothing is done about such a text before it is classified, unless it
                           is skipped;
* `IsFreeStart.ofText_eq`  it is a plain statement, skipped or not;
* `Builder.DrawsWhole`     the braces leave a statement alone and it gets a node with its text;
* `Builder.drawsWhole_iff` so does every such statement that does not start with `template`, and of
                           one that does nothing is left.
-/

namespace CodeChart

/-! ## first words -/

def reservedWords : List Text := "template".toList :: keywords

/-- a word that is not reserved, and a rest that does not go on with it -/
structure IsFreeStart (word rest : Text) : Prop where
  nonempty : word ≠ []
  letters : word.all isWord = true
  free : word ∉ reservedWords
  ends : continuesWord rest = false

section
variable {word rest : Text} (h : IsFreeStart word rest)
include h

theorem IsFreeStart.isPlainStart (ht : ¬ "template".toList <+: word) : IsPlainStart word rest where
  nonempty := h.nonempty
  letters := h.letters
  free hm := h.free (List.mem_cons_of_mem _ hm)
  notTemplate := ht
  ends := h.ends

theorem IsFreeStart.head_isWord : ∃ c t, word ++ rest = c :: t ∧ isWord c = true := by
  cases hw : word with
  | nil => exact absurd hw h.nonempty
  | cons c word =>
    exact ⟨c, word ++ rest, rfl, List.all_eq_true.1 h.letters c (by rw [hw]; exact .head _)⟩

/-- the words that start with `template` are in no table of kinds -/
theorem IsFreeStart.ofText_eq : Kind.ofText (word ++ rest) = .plain := by
  by_cases ht : "template".toList <+: word
  · obtain ⟨u, rfl⟩ := ht
    rfl
  · exact (h.isPlainStart ht).ofText_eq

theorem IsFreeStart.isOrdinary (ht : ¬ "template".toList <+: word)
    (hb : 0 ≤ braceBalance (word ++ rest)) : IsOrdinary (word ++ rest) := by
  have hp := h.isPlainStart ht
  obtain ⟨c, t, hct, hc⟩ := h.head_isWord
  refine ⟨hp.declares_eq, hp.isSkipped_eq, ?_, ?_⟩
  · intro hbrace
    rw [hct] at hbrace
    rw [(List.cons.inj hbrace).1] at hc
    exact absurd hc (by decide)
  · have hhead : ((word ++ rest).head? == some '}') = false := by
      rw [hct, beq_eq_false_iff_ne]
      intro hclose
      rw [Option.some.inj hclose] at hc
      exact absurd hc (by decide)
    have hneg : ¬ braceBalance (word ++ rest) < 0 := by omega
    rw [closesScope, hhead, decide_eq_false hneg]
    rfl

end

/-! ## nodes -/

/-- a plain statement whose text is drawn as it stands -/
structure Builder.DrawsWhole (b : Builder) (s : Statement) : Prop where
  braces : b.braces s.text = (b, some s.text)
  kind : Kind.ofText s.text = .plain
  nodes : (b.feed s).nodes
    = b.nodes ++ [⟨b.nextId, s.text, Kind.plain.category s.text, some .plain, s.line⟩]

theorem Builder.nodes_add_plain (b : Builder) (t : Text) (line : Int) :
    (b.add .plain t line).nodes
      = b.nodes ++ [⟨b.nextId, t, Kind.plain.category t, some .plain, line⟩] := by
  obtain ⟨top, outer, switches, hsettle⟩ :=
    (b.draw .plain t line).settle_fields .plain (Kind.plain.placement t) b.nextId
  have hstay : b.leaveFor .plain = b := Builder.leaveFor_of_stays rfl b
  rw [Builder.add, hstay, hsettle, Builder.draw_eq]
  rfl

/-- a statement whose first word starts with `template` is skipped -/
theorem Builder.feed_template {b : Builder} {s : Statement} {t : Text}
    (h : s.text = "template".toList ++ t) : b.braces s.text = (b, none) ∧ b.feed s = b := by
  have hbraces : b.braces s.text = (b, none) := by
    rw [h]
    rfl
  exact ⟨hbraces, by rw [Builder.feed, hbraces]⟩

/-- **a statement whose first word is not reserved is drawn as it stands if and only if that word
does not start with `template`**; nothing is left of it then, although it is a plain statement -/
theorem Builder.drawsWhole_iff {word rest : Text} (h : IsFreeStart word rest)
    (hb : 0 ≤ braceBalance (word ++ rest)) {b : Builder} (hi : b.ignored = 0) (line : Nat) :
    (b.DrawsWhole ⟨word ++ rest, line⟩ ↔ ¬ "template".toList <+: word) ∧
    ("template".toList <+: word → b.feed ⟨word ++ rest, line⟩ = b) ∧
    Kind.ofText (word ++ rest) = .plain := by
  have hskip : "template".toList <+: word →
      b.braces (word ++ rest) = (b, none) ∧ b.feed ⟨word ++ rest, line⟩ = b := by
    rintro ⟨u, rfl⟩
    exact Builder.feed_template (s := ⟨_, line⟩) (List.append_assoc _ u rest)
  refine ⟨⟨?_, ?_⟩, fun ht => (hskip ht).2, h.ofText_eq⟩
  · intro hd ht
    have hbraces := hd.braces
    rw [(hskip ht).1] at hbraces
    cases hbraces
  · intro ht
    have ho : IsOrdinary (word ++ rest) := h.isOrdinary ht hb
    refine ⟨Builder.braces_of_ordinary hi ho, h.ofText_eq, ?_⟩
    rw [Builder.feed_of_ordinary hi ho, h.ofText_eq, Builder.nodes_add_plain]

/-- words that begin like keywords, in a function -/
theorem drawsWhole_iffy :
    openFunction.ignored = 0 ∧ IsFreeStart "iffy".toList "(structure) \x7b".toList ∧
    0 ≤ braceBalance ("iffy".toList ++ "(structure) \x7b".toList) ∧
    (openFunction.DrawsWhole ⟨"iffy(structure) \x7b".toList, 2⟩ ↔
      ¬ "template".toList <+: "iffy".toList) ∧
    openFunction.DrawsWhole ⟨"iffy(structure) \x7b".toList, 2⟩ := by
  have hi : openFunction.ignored = 0 := by decide +kernel
  have h : IsFreeStart "iffy".toList "(structure) \x7b".toList :=
    ⟨by decide, by decide +kernel, by decide, by decide +kernel⟩
  have hb : 0 ≤ braceBalance ("iffy".toList ++ "(structure) \x7b".toList) := by decide
  have hiff := (Builder.drawsWhole_iff h hb hi 2).1
  exact ⟨hi, h, hb, hiff, hiff.2 (by decide)⟩

/-- an assignment to a variable that leaves no trace -/
theorem templateCount_vanishes :
    statements "template_count = 3;".toList = [⟨"template_count".toList ++ " = 3;".toList, 1⟩] ∧
    IsFreeStart "template_count".toList " = 3;".toList ∧
    0 ≤ braceBalance ("template_count".toList ++ " = 3;".toList) ∧
    Builder.fresh.ignored = 0 ∧
    ¬ Builder.fresh.DrawsWhole ⟨"template_count".toList ++ " = 3;".toList, 1⟩ ∧
    Builder.ofSource "template_count = 3;".toList = Builder.fresh := by
  refine ⟨by decide +kernel, ⟨by decide, by decide +kernel, by decide, by decide +kernel⟩,
    by decide, rfl, ?_, by decide +kernel⟩
  intro h
  have hbraces := h.braces
  cases hbraces

end CodeChart
