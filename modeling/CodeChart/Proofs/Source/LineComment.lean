import CodeChart.Proofs.Source.Lines
import CodeChart.Proofs.Source.Pieces

/-!
# What a line comment says

Block comments are deleted first, and they are looked for in line comments as well.  So the text of
a line comment matters if a block comment begins with its slashes, and it matters for the lines
below if one that begins in it ends there.

* `withLineComment`   a text with a line comment in it;
* `HidesNoComment`   no block comment begins with the second slash, and none that begins further
                     on reaches the text below;
* `dropComments_lineComment`   then the text below is read as if the comment were not there;
* `Strip.statements_append`   a line with a comment behind it has the same statements;
* `statements_lineComment`   the text of such a comment does not matter.
-/

namespace CodeChart

def withLineComment (u c v : Text) : Text := u ++ ("//".toList ++ (c ++ '\n' :: v))

/-- `c` stands behind the slashes, and `v` on the lines below -/
structure HidesNoComment (c v : Text) : Prop where
  slash : c.head? = some '*' → ¬ commentCloser <:+: c.tail ∧ ¬ commentCloser <:+: v
  closed : ClosesComments c ∨ ¬ commentCloser <:+: v

/-! ## the text below -/

/-- a line end is no part of a mark -/
theorem closer_infix_line {a b : Text} (h : commentCloser <:+: a ++ '\n' :: b) :
    commentCloser <:+: a ∨ commentCloser <:+: b := by
  rwa [commentCloser, ← hasPair_iff, hasPair_append_cons (by decide) (by decide),
    Bool.or_eq_true, hasPair_iff, hasPair_iff] at h

section
variable {C V : List Located} {a : Located}

theorem dropComments_line (ha : a.char = '\n') :
    dropComments (a :: V) = a :: dropComments V := by
  refine outsideComments_cons ?_
  rintro ⟨hslash, _⟩
  rw [ha] at hslash
  exact absurd hslash (by decide)

theorem dropComments_comment_line (ha : a.char = '\n')
    (h : ClosesComments (C.map Located.char) ∨ ¬ commentCloser <:+: V.map Located.char) :
    dropComments (C ++ a :: V) = dropComments C ++ a :: dropComments V := by
  rcases h with hC | hV
  · rw [dropComments_append hC, dropComments_line ha]
    intro _ hstar
    rw [List.map_cons, List.head?_cons, ha] at hstar
    exact absurd (Option.some.inj hstar) (by decide)
  · rw [dropComments_of_no_closer hV]
    refine dropComments_append_of_no_closer ?_ ?_
    · rw [List.map_cons, ha]
      intro hin
      rcases closer_infix_line (a := []) hin with hin | hin
      · exact absurd hin (by decide)
      · exact hV hin
    · rw [List.map_cons, List.head?_cons, ha]
      decide

/-- two slashes and a text that hides no comment are kept, with some of that text -/
theorem dropComments_lineComment {n m : Nat} (ha : a.char = '\n')
    (h : HidesNoComment (C.map Located.char) (V.map Located.char)) :
    dropComments (⟨'/', n⟩ :: ⟨'/', m⟩ :: (C ++ a :: V))
      = ⟨'/', n⟩ :: ⟨'/', m⟩ :: (dropComments C ++ a :: dropComments V) := by
  rw [dropComments, outsideComments_cons, outsideComments_cons]
  · exact congrArg (fun t => _ :: _ :: t) (dropComments_comment_line ha h.closed)
  · rintro ⟨_, hstar, hin⟩
    cases C with
    | nil =>
      rw [List.nil_append, List.map_cons, List.head?_cons, ha] at hstar
      exact absurd (Option.some.inj hstar) (by decide)
    | cons b C =>
      obtain ⟨htail, hbelow⟩ := h.slash hstar
      rw [List.cons_append, List.tail_cons, List.map_append, List.map_cons, ha] at hin
      exact (closer_infix_line hin).elim htail hbelow
  · rintro ⟨_, hstar, _⟩
    cases hstar

end

/-! ## the line -/

theorem cutLineComment_append {t : Text} (h : t.getLast? ≠ some '/') (c : Text) :
    cutLineComment (t ++ '/' :: '/' :: c) = cutLineComment t := by
  induction t with
  | nil => rfl
  | cons d t ih =>
    cases t with
    | nil =>
      have hd : d ≠ '/' := fun hd => h (by rw [hd]; rfl)
      simp [cutLineComment, hd]
    | cons e t =>
      have hlast : (e :: t).getLast? ≠ some '/' := by rwa [List.getLast?_cons_cons] at h
      rw [List.cons_append, cutLineComment, ih hlast]
      rfl

theorem Strip.statements_append {n : Nat} {t w : List Located} {c : Text}
    (ht : (t.map Located.char).getLast? ≠ some '/')
    (hw : w.map Located.char = '/' :: '/' :: c) :
    (Strip.logicalLine ⟨n, t ++ w⟩).statements = (Strip.logicalLine ⟨n, t⟩).statements := by
  have hcut : cutLineComment (Strip.text ⟨n, t ++ w⟩) = cutLineComment (Strip.text ⟨n, t⟩) := by
    rw [Strip.text, List.map_append, hw]
    exact cutLineComment_append ht c
  rw [LogicalLine.statements, show (Strip.logicalLine ⟨n, t ++ w⟩).text = Strip.text ⟨n, t ++ w⟩
    from rfl, hcut]
  -- the numbers can only differ on a blank line, and that one has no statements
  refine List.map_congr_left fun p hp => ?_
  have hmem : (⟨p, Strip.line ⟨n, t⟩⟩ : Statement) ∈ (Strip.logicalLine ⟨n, t⟩).statements :=
    List.mem_map_of_mem hp
  exact congrArg (Statement.mk p) (Strip.line_append (LogicalLine.exists_visible hmem))

/-- what stands behind the slashes goes with the last row in front of them -/
theorem strips_lineComment {n i j : Nat} {t c rest : List Located} {a : Located}
    (ht : (t.map Located.char).getLast? ≠ some '/') (hc : ∀ b ∈ c, b.char ≠ '\n')
    (ha : a.char = '\n') :
    ((strips n (t ++ ⟨'/', i⟩ :: ⟨'/', j⟩ :: (c ++ a :: rest))).map Strip.logicalLine).flatMap
        LogicalLine.statements
      = ((strips n (t ++ a :: rest)).map Strip.logicalLine).flatMap LogicalLine.statements := by
  obtain ⟨more, s, ⟨before, rfl⟩, hall⟩ := exists_last_strip n t
  have hlast : (s.chars.map Located.char).getLast? ≠ some '/' := by
    intro hslash
    rw [List.map_append, List.getLast?_append, hslash] at ht
    exact ht rfl
  have hlong := hall (⟨'/', i⟩ :: ⟨'/', j⟩ :: c)
    (by simpa only [List.forall_mem_cons] using ⟨by decide, by decide, hc⟩)
  have hshort := hall [] fun _ h => absurd h List.not_mem_nil
  rw [List.append_nil, List.append_nil] at hshort
  have hsame : (Strip.logicalLine ⟨s.opened, s.chars ++ ⟨'/', i⟩ :: ⟨'/', j⟩ :: c⟩).statements
      = s.logicalLine.statements := Strip.statements_append hlast rfl
  rw [← List.cons_append, ← List.cons_append, ← List.append_assoc, strips_append_line n _ ha,
    strips_append_line n _ ha, hlong, hshort]
  simp only [List.map_append, List.flatMap_append, List.map_cons, List.flatMap_cons, hsame]

/-! ## the statements -/

theorem getLast?_dropComments {n : Nat} {t : Text} (h : t.getLast? ≠ some '/') :
    ((dropComments (locate n t)).map Located.char).getLast? = t.getLast? := by
  have hlast := (uncommented_dropComments (locate n t)).getLast?_eq (by rwa [map_char_locate])
  rw [List.getLast?_map, hlast, ← List.getLast?_map, map_char_locate]

/-- **the text of a line comment does not matter**, unless it hides a block comment -/
theorem statements_lineComment {u c v : Text} (hu : ClosesComments u) (hend : u.getLast? ≠ some '/')
    (hc : '\n' ∉ c) (hh : HidesNoComment c v) :
    statements (withLineComment u c v) = statements (u ++ '\n' :: v) := by
  have hcount : newlines c = 0 := List.count_eq_zero.2 hc
  let n := 1 + newlines u
  have hlong : locate 1 (withLineComment u c v)
      = locate 1 u ++ ⟨'/', n⟩ :: ⟨'/', n⟩ ::
        (locate n c ++ ⟨'\n', n⟩ :: locate (n + 1) v) := by
    rw [withLineComment, locate_append]
    show _ ++ ⟨'/', n⟩ :: ⟨'/', n⟩ :: locate n (c ++ '\n' :: v) = _
    rw [locate_line, hcount]
    rfl
  have hread : ∀ w : List Located,
      dropComments (locate 1 u ++ w) = dropComments (locate 1 u) ++ dropComments w := by
    intro w
    refine dropComments_append ?_ fun hlast => absurd hlast ?_
    · rwa [map_char_locate]
    · rwa [map_char_locate]
  have hbelow : HidesNoComment ((locate n c).map Located.char)
      ((locate (n + 1) v).map Located.char) := by
    rwa [map_char_locate, map_char_locate]
  have hkept : ∀ b ∈ dropComments (locate n c), b.char ≠ '\n' :=
    fun b hb => char_of_mem_locate hc b ((outsideComments_sublist _ _).subset hb)
  -- without block comments the two texts differ in the slashes and what is kept of `c` alone
  rw [statements, statements, logicalLines_eq, logicalLines_eq, hlong, locate_line, hread, hread,
    dropComments_lineComment rfl hbelow, dropComments_line rfl]
  exact strips_lineComment (by rwa [getLast?_dropComments hend]) hkept rfl

/-- a line comment with a whole block comment in it, between two others -/
theorem statements_lineComment_between :
    ClosesComments "a(); /* one\n*/ b();".toList ∧
    "a(); /* one\n*/ b();".toList.getLast? ≠ some '/' ∧ '\n' ∉ " see /* x */ y".toList ∧
    HidesNoComment " see /* x */ y".toList "c(); /* z */\nd();".toList ∧
    statements (withLineComment "a(); /* one\n*/ b();".toList " see /* x */ y".toList
        "c(); /* z */\nd();".toList)
      = statements ("a(); /* one\n*/ b();".toList ++ '\n' :: "c(); /* z */\nd();".toList) := by
  have hu : ClosesComments "a(); /* one\n*/ b();".toList :=
    @ClosesComments.comment "a(); ".toList "/* one\n*/".toList " b();".toList
      (isFirstComment_iff.2 ⟨by decide, " one\n".toList, by decide, by decide⟩) (.code (by decide))
  have hc : ClosesComments " see /* x */ y".toList :=
    @ClosesComments.comment " see ".toList "/* x */".toList " y".toList
      (isFirstComment_iff.2 ⟨by decide, " x ".toList, by decide, by decide⟩) (.code (by decide))
  have hh : HidesNoComment " see /* x */ y".toList "c(); /* z */\nd();".toList :=
    ⟨fun hstar => absurd hstar (by decide), .inl hc⟩
  exact ⟨hu, by decide, by decide, hh, statements_lineComment hu (by decide) (by decide) hh⟩

/-- a block comment that begins in a line comment takes the code up to its end with it, and one that
begins with the second slash leaves the first slash and what follows -/
theorem lineComment_matters :
    ClosesComments "x(); ".toList ∧ "x(); ".toList.getLast? ≠ some '/' ∧
    ('\n' ∉ " see /* below".toList ∧
      statements (withLineComment "x(); ".toList " see /* below".toList
        "a();\n/* b */\nc();".toList) = [⟨"x();".toList, 1⟩, ⟨"c();".toList, 4⟩] ∧
      statements ("x(); ".toList ++ '\n' :: "a();\n/* b */\nc();".toList)
        = [⟨"x();".toList, 1⟩, ⟨"a();".toList, 2⟩, ⟨"c();".toList, 4⟩]) ∧
    ('\n' ∉ "* see */ below".toList ∧
      statements (withLineComment "x(); ".toList "* see */ below".toList "a();".toList)
        = [⟨"x();".toList, 1⟩, ⟨"/ below".toList, 1⟩, ⟨"a();".toList, 2⟩] ∧
      statements ("x(); ".toList ++ '\n' :: "a();".toList)
        = [⟨"x();".toList, 1⟩, ⟨"a();".toList, 2⟩]) :=
  ⟨.code (by decide), by decide,
    ⟨by decide, by decide +kernel, by decide +kernel⟩,
    ⟨by decide, by decide +kernel, by decide +kernel⟩⟩

end CodeChart
