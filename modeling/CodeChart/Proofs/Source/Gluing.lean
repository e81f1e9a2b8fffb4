import CodeChart.Proofs.Source.Comment
import CodeChart.Proofs.Source.Row
import CodeChart.Proofs.Text.Pieces

/-!
# Lines that are glued together

A text that is read comment by comment gives the same lines as its characters outside comments do,
each taken with the line that it stands on.

* `findComment?_eq_some`, `findComment?_eq_none`   the comment that is found is the first one;
* `Gluing.Holds`           the lines so far are the rows of certain characters, with their numbers;
* `Strip.logicalLine_append`   the number of a row that goes on: its own, or that of the text behind
                           it if it was blank;
* `Gluing.Holds.resume`, `Gluing.Holds.openLine`, `Gluing.Holds.glue`   what one part of a line, a
                           line end and a whole segment of code add;
* `Gluing.Holds.read`      what a text adds: its characters outside comments;
* `logicalLines_eq`, `logicalLines_text`   the logical lines of a text.
-/

namespace CodeChart

/-! ## the comment that is found -/

theorem isPrefixOf_closer_iff {t : Text} :
    commentCloser.isPrefixOf t = true ↔ commentCloser <+: t := List.isPrefixOf_iff_prefix

theorem splitCloser?_eq_some {t : Text} {p : Text × Text} (h : splitCloser? t = some p) :
    t = p.1 ++ p.2 ∧ ∃ body, ¬ commentCloser <:+: body ∧ p.1 = body ++ commentCloser := by
  induction t generalizing p with
  | nil => cases h
  | cons c t ih =>
    rw [splitCloser?] at h
    by_cases hc : commentCloser <+: c :: t
    · rw [if_pos (isPrefixOf_closer_iff.2 hc)] at h
      obtain rfl := Option.some.inj h
      obtain ⟨rest, hrest⟩ := hc
      obtain ⟨rfl, rfl⟩ := List.cons.inj hrest
      exact ⟨rfl, [], by decide, rfl⟩
    · rw [if_neg (mt isPrefixOf_closer_iff.1 hc)] at h
      obtain ⟨q, hq, rfl⟩ := Option.map_eq_some_iff.1 h
      obtain ⟨ht, body, hbody, hq1⟩ := ih hq
      refine ⟨congrArg (c :: ·) ht, c :: body, fun hin => ?_, congrArg (c :: ·) hq1⟩
      rcases List.infix_cons_iff.1 hin with hin | hin
      · refine hc (hin.trans ?_)
        rw [ht, hq1, List.append_assoc, ← List.cons_append]
        exact List.prefix_append _ _
      · exact hbody hin

theorem splitCloser?_eq_none {t : Text} (h : splitCloser? t = none) : ¬ commentCloser <:+: t := by
  induction t with
  | nil => decide
  | cons c t ih =>
    rw [splitCloser?] at h
    by_cases hc : commentCloser <+: c :: t
    · rw [if_pos (isPrefixOf_closer_iff.2 hc)] at h
      cases h
    · rw [if_neg (mt isPrefixOf_closer_iff.1 hc)] at h
      rw [List.infix_cons_iff, not_or]
      exact ⟨hc, ih (Option.map_eq_none_iff.1 h)⟩

theorem commentAt?_eq_some {t : Text} {found : FoundComment} (h : commentAt? t = some found) :
    t = found.comment ++ found.rest ∧ IsFirstComment found.code found.comment found.rest ∧
      found.code = [] := by
  rw [commentAt?] at h
  split at h
  · rename_i hopen
    obtain ⟨p, hp, rfl⟩ := Option.map_eq_some_iff.1 h
    obtain ⟨ht, body, hbody, hp1⟩ := splitCloser?_eq_some hp
    obtain ⟨rest, rfl⟩ := List.isPrefixOf_iff_prefix.1 hopen
    have hfirst : ¬ commentOpener <:+: ([] : Text) := by decide
    refine ⟨?_, isFirstComment_iff.2 ⟨hfirst, body, hbody, ?_⟩, rfl⟩
    · show commentOpener ++ rest = (commentOpener ++ p.1) ++ p.2
      rw [List.append_assoc, ← ht]
      rfl
    · show commentOpener ++ p.1 = _
      rw [hp1]
  · cases h

theorem commentAt?_eq_none {t m z : Text} (h : commentAt? t = none) (ht : t = m ++ z) :
    ¬ IsBlockComment m := by
  rintro ⟨body, rfl⟩
  have hopen : commentOpener.isPrefixOf t = true := by
    rw [List.isPrefixOf_iff_prefix, ht, List.append_assoc]
    exact List.prefix_append _ _
  rw [commentAt?, if_pos hopen] at h
  refine splitCloser?_eq_none (Option.map_eq_none_iff.1 h) ⟨body, z, ?_⟩
  rw [ht]
  rfl

theorem findComment?_eq_some {t : Text} {found : FoundComment} (h : findComment? t = some found) :
    t = found.code ++ (found.comment ++ found.rest) ∧
      IsFirstComment found.code found.comment found.rest := by
  induction t generalizing found with
  | nil => cases h
  | cons c t ih =>
    rw [findComment?] at h
    split at h
    · rename_i first hfirst
      obtain rfl := Option.some.inj h
      obtain ⟨ht, hc, hcode⟩ := commentAt?_eq_some hfirst
      exact ⟨by rw [hcode]; exact ht, hc⟩
    · rename_i hnone
      obtain ⟨later, hlater, rfl⟩ := Option.map_eq_some_iff.1 h
      obtain ⟨ht, hc⟩ := ih hlater
      refine ⟨congrArg (c :: ·) ht, hc.isComment, fun a m z heq hm => ?_, hc.shortest⟩
      -- a comment further left would begin with the first character
      cases a with
      | nil =>
        have htext : c :: t = m ++ z := by
          rw [ht]
          exact heq
        exact absurd hm (commentAt?_eq_none hnone htext)
      | cons d a =>
        have htail := (List.cons.inj heq).2
        exact Nat.succ_le_succ (hc.leftmost a m z htail hm)

theorem findComment?_eq_none {t a m z : Text} (h : findComment? t = none)
    (ht : t = a ++ (m ++ z)) : ¬ IsBlockComment m := by
  induction t generalizing a with
  | nil =>
    rintro ⟨body, rfl⟩
    have hlength := congrArg List.length ht
    simp [commentOpener] at hlength
  | cons c t ih =>
    rw [findComment?] at h
    split at h
    · cases h
    · rename_i hnone
      cases a with
      | nil => exact commentAt?_eq_none hnone ht
      | cons d a => exact ih (Option.map_eq_none_iff.1 h) (List.cons.inj ht).2

/-! ## the number of a row that goes on -/

theorem find?_locate_of_blank {n : Nat} {t : Text} (h : allBlank t = true) :
    (locate n t).find? (fun a => !isBlank a.char) = none := by
  refine List.find?_eq_none.2 fun a ha => ?_
  have hc : a.char ∈ t := by
    rw [← map_char_locate n t]
    exact List.mem_map_of_mem ha
  simp [List.all_eq_true.1 h a.char hc]

/-- a blank row takes its number from the first visible text behind it -/
theorem Strip.logicalLine_append {s : Strip} {n : Nat} {part : Text} (hpart : '\n' ∉ part) :
    Strip.logicalLine ⟨s.opened, s.chars ++ locate n part⟩ =
      ⟨if (trim s.text).isEmpty && !(trim part).isEmpty then n else s.line, s.text ++ part⟩ := by
  have htext : Strip.text ⟨s.opened, s.chars ++ locate n part⟩ = s.text ++ part := by
    show (s.chars ++ locate n part).map Located.char = _
    rw [List.map_append, map_char_locate]
    rfl
  rw [isEmpty_trim, isEmpty_trim, Strip.logicalLine, htext]
  refine congrArg (LogicalLine.mk · _) ?_
  cases hblank : allBlank s.text with
  | false =>
    obtain ⟨c, hc, hv⟩ := List.all_eq_false.1 hblank
    exact Strip.line_append ⟨c, hc, Bool.not_eq_true _ ▸ hv⟩
  | true =>
    have hnone : s.chars.find? (fun a => !isBlank a.char) = none := by
      refine List.find?_eq_none.2 fun a ha => ?_
      simp [List.all_eq_true.1 hblank a.char (List.mem_map_of_mem ha)]
    rw [Strip.line, Strip.line, List.find?_append, hnone, Option.none_or]
    cases hrest : allBlank part with
    | true => rw [find?_locate_of_blank hrest]; rfl
    | false =>
      obtain ⟨c, hc, hv⟩ := List.all_eq_false.1 hrest
      rw [← map_char_locate n part] at hc
      obtain ⟨a, ha, rfl⟩ := List.mem_map.1 hc
      obtain ⟨b, hb⟩ := Option.isSome_iff_exists.1
        (List.find?_isSome (p := fun a => !isBlank a.char) |>.2 ⟨a, ha, by simpa using hv⟩)
      rw [hb]
      exact line_of_mem_locate hpart b (List.mem_of_find?_eq_some hb)

/-! ## gluing -/

namespace Gluing

theorem read_of_none (g : Gluing) {t : Text} (h : findComment? t = none) : g.read t = g.glue t := by
  rw [Gluing.read]
  split
  · rfl
  · rename_i found hfound
    rw [h] at hfound
    cases hfound

theorem read_of_some (g : Gluing) {t : Text} {found : FoundComment}
    (h : findComment? t = some found) :
    g.read t = ((g.glue found.code).skip found.comment).read found.rest := by
  rw [Gluing.read]
  split
  · rename_i hnone
    rw [h] at hnone
    cases hnone
  · rename_i other hother
    rw [h] at hother
    rw [Option.some.inj hother]

/-- what is glued together so far are the rows of `kept` -/
def Holds (g : Gluing) (kept : List Located) : Prop :=
  g.lines = (strips 1 kept).map Strip.logicalLine

theorem holds_start : start.Holds [] := rfl

section
variable {g : Gluing} {kept : List Located} (h : g.Holds kept)
include h

theorem Holds.resume {part : Text} (hpart : '\n' ∉ part) :
    (g.resume part).Holds (kept ++ locate g.reached part) := by
  obtain ⟨more, s, _, hall⟩ := exists_last_strip 1 kept
  have hkept := hall [] fun _ hb => absurd hb List.not_mem_nil
  rw [List.append_nil, List.append_nil] at hkept
  rw [Holds, hkept, lines, List.reverse_cons, List.map_append] at h
  obtain ⟨hcomplete, hlast⟩ := List.append_inj' h rfl
  have hlast : g.last = s.logicalLine := (List.cons.inj hlast).1
  rw [Holds, hall _ (char_of_mem_locate hpart), List.map_append, ← hcomplete, List.map_singleton,
    Strip.logicalLine_append hpart]
  show (_ :: g.complete).reverse = _
  rw [List.reverse_cons, Gluing.resume, hlast]
  rfl

theorem Holds.openLine {part : Text} (hpart : '\n' ∉ part) :
    (g.openLine part).Holds
      (kept ++ ⟨'\n', g.reached⟩ :: locate (g.reached + 1) part) := by
  rw [Holds, strips_append_line 1 kept rfl, strips_row (char_of_mem_locate hpart), List.map_append,
    ← h, List.map_singleton, logicalLine_of_line hpart]
  exact List.reverse_cons

/-- a line end and a part of a line, again and again -/
theorem Holds.foldl_openLine {parts : List Text} (hparts : ∀ part ∈ parts, '\n' ∉ part) :
    (parts.foldl Gluing.openLine g).Holds
        (kept ++ locate g.reached (parts.flatMap ('\n' :: ·))) ∧
      (parts.foldl Gluing.openLine g).reached
        = g.reached + newlines (parts.flatMap ('\n' :: ·)) := by
  induction parts generalizing g kept with
  | nil =>
    refine ⟨?_, rfl⟩
    rw [List.flatMap_nil, locate, List.append_nil]
    exact h
  | cons part parts ih =>
    obtain ⟨hpart, hrest⟩ := List.forall_mem_cons.1 hparts
    obtain ⟨hlines, hreached⟩ := ih (h.openLine hpart) hrest
    have hcount : newlines part = 0 := List.count_eq_zero.2 hpart
    have hline : g.reached + newlines ('\n' :: part) = g.reached + 1 := by
      rw [newlines, List.count_cons_self, ← newlines, hcount]
    have hall : kept ++ locate g.reached ((part :: parts).flatMap ('\n' :: ·))
        = kept ++ ⟨'\n', g.reached⟩ :: locate (g.reached + 1) part
          ++ locate (g.reached + 1) (parts.flatMap ('\n' :: ·)) := by
      rw [List.flatMap_cons, locate_append, hline, List.append_assoc]
      rfl
    refine ⟨hall ▸ hlines, ?_⟩
    show (parts.foldl Gluing.openLine (g.openLine part)).reached = _
    rw [hreached, List.flatMap_cons, newlines_append, ← Nat.add_assoc, hline]
    rfl

theorem Holds.glue (code : Text) :
    (g.glue code).Holds (kept ++ locate g.reached code) ∧
      (g.glue code).reached = g.reached + newlines code := by
  obtain ⟨part, parts, hsplit⟩ := List.exists_cons_of_ne_nil (List.splitOn_ne_nil '\n' code)
  have hall : ∀ p ∈ part :: parts, '\n' ∉ p := fun p hp => not_mem_of_mem_splitOn (hsplit ▸ hp)
  obtain ⟨hpart, hparts⟩ := List.forall_mem_cons.1 hall
  have hcode : code = part ++ parts.flatMap ('\n' :: ·) := by
    rw [← intercalate_cons_eq, ← hsplit, List.intercalate_splitOn]
  have hcount : newlines part = 0 := List.count_eq_zero.2 hpart
  obtain ⟨hlines, hreached⟩ := (h.resume hpart).foldl_openLine hparts
  have hglue : g.glue code = parts.foldl Gluing.openLine (g.resume part) := by
    rw [Gluing.glue, hsplit]
  rw [hglue]
  constructor
  · rw [hcode, locate_append, hcount, ← List.append_assoc]
    exact hlines
  · rw [hreached, hcode, newlines_append, hcount, Nat.zero_add]
    rfl

/-- a text adds its characters outside comments -/
theorem Holds.read (t : Text) : (g.read t).Holds (kept ++ dropComments (locate g.reached t)) := by
  induction hn : t.length using Nat.strong_induction_on generalizing g kept t with
  | _ n ih =>
    subst hn
    cases hfind : findComment? t with
    | none =>
      have hkept : dropComments (locate g.reached t) = locate g.reached t := by
        refine outsideComments_of_none fun a m z heq => ?_
        rw [map_char_locate] at heq
        exact findComment?_eq_none hfind heq
      rw [read_of_none g hfind, hkept]
      exact (h.glue t).1
    | some found =>
      obtain ⟨ht, hc⟩ := findComment?_eq_some hfind
      obtain ⟨hlines, hreached⟩ := h.glue found.code
      have hrest := ih _ (length_findComment?_lt hfind)
        (show ((g.glue found.code).skip found.comment).Holds _ from hlines) found.rest rfl
      have hskip : ((g.glue found.code).skip found.comment).reached
          = g.reached + newlines found.code + newlines found.comment :=
        congrArg (· + _) hreached
      have hkept : dropComments (locate g.reached t) = locate g.reached found.code ++
          dropComments (locate (g.reached + newlines found.code + newlines found.comment)
            found.rest) := by
        conv_lhs => rw [ht, locate_append, locate_append]
        refine outsideComments_first ?_
        rwa [map_char_locate, map_char_locate, map_char_locate]
      rw [hskip, List.append_assoc, ← hkept] at hrest
      rw [read_of_some g hfind]
      exact hrest

end

end Gluing

/-! ## the lines of a text -/

/-- **reading comment by comment is reading character by character**, the numbers included -/
theorem logicalLines_eq (src : Text) :
    logicalLines src = (strips 1 (dropComments (locate 1 src))).map Strip.logicalLine :=
  Gluing.holds_start.read src

theorem logicalLines_text (src : Text) :
    List.intercalate ['\n'] ((logicalLines src).map LogicalLine.text)
      = (dropComments (locate 1 src)).map Located.char := by
  have htext : LogicalLine.text ∘ Strip.logicalLine = Strip.text := rfl
  rw [logicalLines_eq, List.map_map, htext, strips_text, List.intercalate_splitOn]

end CodeChart
