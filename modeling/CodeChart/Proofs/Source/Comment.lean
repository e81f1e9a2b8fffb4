import CodeChart.Proofs.Source.Strip
import Mathlib.Data.List.Infix
import Mathlib.Data.Nat.Find

/-!
# Which characters are left of a text

A text is searched for its first block comment, the shortest one at that place; it is deleted, and
the search goes on behind it.

* `IsFirstComment`     the leftmost comment of a text, and the shortest one there;
                       `isFirstComment_iff` tells it by what must not occur in front of it and
                       between its ends;
* `Uncommented`        what is left when one first comment after the other is deleted; there is
                       always exactly one such rest (`exists_uncommented`, `Uncommented.unique`);
* `Uncommented.dropComments_eq`   reading character by character leaves the same;
* `ClosesComments`     a text that leaves no comment open;
* `dropComments_append`, `dropComments_comment`, `dropComments_append_of_no_closer`   such a text in
                       front of another, with a comment between the two or without, and a text in
                       front of one that closes no comment, are read each for itself.
-/

namespace CodeChart

/-! ## comments -/

/-- an opening and a closing mark, with any text between them -/
def IsBlockComment (t : Text) : Prop := ∃ body, t = commentOpener ++ (body ++ commentCloser)

/-- no comment of the text begins further left, and none that begins there is shorter -/
structure IsFirstComment (code comment rest : Text) : Prop where
  isComment : IsBlockComment comment
  leftmost : ∀ a m z, code ++ (comment ++ rest) = a ++ (m ++ z) → IsBlockComment m →
    code.length ≤ a.length
  shortest : ∀ m z, comment ++ rest = m ++ z → IsBlockComment m → comment.length ≤ m.length

/-! ## pairs of characters -/

theorem pair_prefix_cons {a b c : Char} {t : Text} :
    [a, b] <+: c :: t ↔ c = a ∧ t.head? = some b := by
  rw [List.cons_prefix_cons, eq_comm]
  refine and_congr_right fun _ => ?_
  cases t with
  | nil => simp
  | cons d t => simp [eq_comm]

/-- one more character makes a new pair only with the last one -/
theorem pair_infix_concat {a b c : Char} {t : Text} (h : [a, b] <:+: t ++ [c]) :
    [a, b] <:+: t ∨ (t.getLast? = some a ∧ c = b) := by
  rcases List.infix_concat_iff.1 h with ⟨s, hs⟩ | h
  · right
    have hsplit : (s ++ [a]) ++ [b] = t ++ [c] := by rw [← hs]; simp
    obtain ⟨ht, hc⟩ := List.append_inj' hsplit rfl
    rw [← ht]
    exact ⟨List.getLast?_concat, (List.cons.inj hc).1.symm⟩
  · exact .inl h

/-! ## the first comment -/

theorem IsFirstComment.no_opener {code comment rest : Text}
    (h : IsFirstComment code comment rest) : ¬ commentOpener <:+: code := by
  rintro ⟨a, b, rfl⟩
  obtain ⟨body, rfl⟩ := h.isComment
  have hle := h.leftmost a (commentOpener ++ ((b ++ commentOpener ++ body) ++ commentCloser)) rest
    (by simp) ⟨_, rfl⟩
  simp only [commentOpener, List.length_append, List.length_cons] at hle
  omega

theorem IsFirstComment.no_closer {code comment rest : Text}
    (h : IsFirstComment code comment rest) :
    ∃ body, ¬ commentCloser <:+: body ∧ comment = commentOpener ++ (body ++ commentCloser) := by
  obtain ⟨body, rfl⟩ := h.isComment
  refine ⟨body, ?_, rfl⟩
  rintro ⟨a, b, rfl⟩
  have hle := h.shortest (commentOpener ++ (a ++ commentCloser)) (b ++ commentCloser ++ rest)
    (by simp) ⟨_, rfl⟩
  simp only [commentCloser, List.length_append, List.length_cons] at hle
  omega

/-- the first comment has no opener in front of it and no closer inside it -/
theorem isFirstComment_iff {code comment rest : Text} : IsFirstComment code comment rest ↔
    ¬ commentOpener <:+: code ∧
      ∃ body, ¬ commentCloser <:+: body ∧ comment = commentOpener ++ (body ++ commentCloser) := by
  constructor
  · exact fun h => ⟨h.no_opener, h.no_closer⟩
  · rintro ⟨hcode, body, hbody, rfl⟩
    refine ⟨⟨body, rfl⟩, ?_, ?_⟩
    · rintro a m z heq ⟨b, rfl⟩
      rcases List.append_eq_append_iff.1 heq with ⟨u, rfl, _⟩ | ⟨u, rfl, hu⟩
      · rw [List.length_append]
        exact Nat.le_add_right _ _
      · -- the opener of the other comment begins in `u`, and ends there too
        match u with
        | [] => simp
        | [c] => simp [commentOpener] at hu
        | c :: d :: u =>
          simp only [commentOpener, List.cons_append, List.nil_append, List.cons.injEq] at hu
          obtain ⟨rfl, rfl, _⟩ := hu
          exact absurd ⟨a, u, by simp [commentOpener]⟩ hcode
    · rintro m z heq ⟨b, rfl⟩
      by_contra hlt
      rcases List.append_eq_append_iff.1 heq with ⟨u, hu, _⟩ | ⟨u, hu, _⟩
      · have hlen := congrArg List.length hu
        simp only [List.length_append] at hlen hlt
        omega
      · rw [List.append_assoc, List.append_cancel_left_eq, List.append_assoc] at hu
        have hne : u ≠ [] := by
          rintro rfl
          rw [List.append_nil, List.append_cancel_right_eq] at hu
          exact hlt (by rw [hu])
        obtain ⟨u, c, rfl⟩ := (List.eq_nil_or_concat' u).resolve_left hne
        have hdrop : (body ++ ['*']) ++ ['/'] = (b ++ (commentCloser ++ u)) ++ [c] := by
          simpa [commentCloser] using hu
        obtain ⟨hstar, _⟩ := List.append_inj' hdrop rfl
        have hin : commentCloser <:+: body ++ ['*'] := ⟨b, u, by rw [hstar, List.append_assoc]⟩
        rcases pair_infix_concat hin with hin | ⟨_, hc⟩
        · exact hbody hin
        · exact absurd hc (by decide)

/-- what follows a comment does not matter -/
theorem IsFirstComment.with_rest {code comment rest : Text} (h : IsFirstComment code comment rest)
    (w : Text) : IsFirstComment code comment w :=
  isFirstComment_iff.2 (isFirstComment_iff.1 h)

theorem exists_isFirstComment {t : Text}
    (h : ∃ a m z, t = a ++ (m ++ z) ∧ IsBlockComment m) :
    ∃ code comment rest, t = code ++ (comment ++ rest) ∧ IsFirstComment code comment rest := by
  classical
  have hplace : ∃ i, ∃ a m z, t = a ++ (m ++ z) ∧ IsBlockComment m ∧ a.length = i := by
    obtain ⟨a, m, z, ht, hm⟩ := h
    exact ⟨_, a, m, z, ht, hm, rfl⟩
  obtain ⟨code, m, z, rfl, hm, hcode⟩ := Nat.find_spec hplace
  have hsize : ∃ k, ∃ n w, m ++ z = n ++ w ∧ IsBlockComment n ∧ n.length = k :=
    ⟨_, m, z, rfl, hm, rfl⟩
  obtain ⟨comment, rest, heq, hcomment, hlen⟩ := Nat.find_spec hsize
  refine ⟨code, comment, rest, by rw [heq], hcomment, ?_, ?_⟩
  · intro a n w hn hc
    rw [hcode]
    exact Nat.find_min' hplace ⟨a, n, w, by rw [heq, hn], hc, rfl⟩
  · intro n w hn hc
    rw [hlen]
    exact Nat.find_min' hsize ⟨n, w, by rw [heq, hn], hc, rfl⟩

/-! ## what is left -/

/-- a text and what is left of it, one first comment after the other being deleted; `char` tells
which character an entry of the text is -/
inductive Uncommented {α : Type} (char : α → Char) : List α → List α → Prop
  | none {t : List α} (h : ∀ a m z, t.map char = a ++ (m ++ z) → ¬ IsBlockComment m) :
      Uncommented char t t
  | first {code comment rest kept : List α}
      (hc : IsFirstComment (code.map char) (comment.map char) (rest.map char))
      (h : Uncommented char rest kept) :
      Uncommented char (code ++ (comment ++ rest)) (code ++ kept)

section
variable {α β : Type} {char : α → Char}

theorem exists_uncommented (char : α → Char) (t : List α) : ∃ kept, Uncommented char t kept := by
  induction hn : t.length using Nat.strongRecOn generalizing t with
  | _ n ih =>
    by_cases h : ∃ a m z, t.map char = a ++ (m ++ z) ∧ IsBlockComment m
    · obtain ⟨code', comment', rest', ht, hc⟩ := exists_isFirstComment h
      obtain ⟨code, t', rfl, rfl, ht'⟩ := List.map_eq_append_iff.1 ht
      obtain ⟨comment, rest, rfl, rfl, rfl⟩ := List.map_eq_append_iff.1 ht'
      have hpos : 0 < comment.length := by
        obtain ⟨body, hb⟩ := hc.isComment
        have hlen := congrArg List.length hb
        simp only [List.length_map, commentOpener, List.length_append, List.length_cons] at hlen
        omega
      obtain ⟨kept, hk⟩ := ih rest.length (by simp only [List.length_append] at hn; omega) rest rfl
      exact ⟨code ++ kept, .first hc hk⟩
    · exact ⟨t, .none fun a m z heq hm => h ⟨a, m, z, heq, hm⟩⟩

/-- comments are found in the characters alone -/
theorem Uncommented.map {charβ : β → Char} {f : α → β} (hf : ∀ a, charβ (f a) = char a)
    {t kept : List α} (h : Uncommented char t kept) : Uncommented charβ (t.map f) (kept.map f) := by
  have hmap : ∀ s : List α, (s.map f).map charβ = s.map char := by
    intro s
    rw [List.map_map]
    exact List.map_congr_left fun a _ => hf a
  induction h with
  | none h => exact .none (by simpa only [hmap] using h)
  | first hc _ ih =>
    simp only [List.map_append]
    exact .first (by simpa only [hmap] using hc) ih

/-- a text that does not end in a slash does not end in a comment -/
theorem Uncommented.getLast?_eq {t kept : List α} (h : Uncommented char t kept)
    (hend : (t.map char).getLast? ≠ some '/') : kept.getLast? = t.getLast? := by
  induction h with
  | none _ => rfl
  | @first code comment rest kept hc h ih =>
    -- with nothing behind it the comment would be the end of the text, and it ends in a slash
    have hne : rest ≠ [] := by
      rintro rfl
      obtain ⟨body, hb⟩ := hc.isComment
      refine hend ?_
      have hlast : commentOpener ++ (body ++ commentCloser)
          = (commentOpener ++ (body ++ ['*'])) ++ ['/'] := by simp [commentCloser]
      rw [List.append_nil, List.map_append, hb, hlast, ← List.append_assoc]
      exact List.getLast?_concat
    have hmap : rest.map char ≠ [] := fun hnil => hne (List.map_eq_nil_iff.1 hnil)
    rw [List.map_append, List.map_append, List.getLast?_append_of_ne_nil _ (by simp [hne]),
      List.getLast?_append_of_ne_nil _ hmap] at hend
    have hrest := ih hend
    have hkept : kept ≠ [] := by
      rintro rfl
      exact hne (List.getLast?_eq_none_iff.1 hrest.symm)
    rw [List.getLast?_append_of_ne_nil _ hkept, hrest,
      List.getLast?_append_of_ne_nil _ (by simp [hne]), List.getLast?_append_of_ne_nil _ hne]

end

/-! ## reading a text -/

theorem closesComment_iff {t : List Located} :
    closesComment t = true ↔ commentCloser <:+: t.map Located.char := by
  induction t with
  | nil => simp [closesComment, commentCloser]
  | cons a t ih =>
    rw [closesComment, Bool.or_eq_true, ih, List.map_cons, List.infix_cons_iff, commentCloser,
      pair_prefix_cons]
    simp

/-- a character is kept unless a comment opens with it that closes -/
theorem outsideComments_cons {a : Located} {t : List Located}
    (h : ¬ (a.char = '/' ∧ (t.map Located.char).head? = some '*' ∧
      commentCloser <:+: t.tail.map Located.char)) :
    outsideComments .code (a :: t) = a :: outsideComments .code t := by
  cases t with
  | nil => rfl
  | cons b t =>
    refine if_neg ?_
    rintro ⟨ha, hb, hc⟩
    exact h ⟨ha, by simp [hb], closesComment_iff.1 hc⟩

theorem outsideComments_of_none {t : List Located}
    (h : ∀ a m z, t.map Located.char = a ++ (m ++ z) → ¬ IsBlockComment m) :
    outsideComments .code t = t := by
  induction t with
  | nil => rfl
  | cons c t ih =>
    rw [outsideComments_cons, ih]
    · intro a m z heq
      exact h (c.char :: a) m z (by rw [List.map_cons, heq, List.cons_append])
    · rintro ⟨hc, hstar, p, q, htail⟩
      cases t with
      | nil => cases hstar
      | cons d t =>
        refine h [] (commentOpener ++ (p ++ commentCloser)) q ?_ ⟨p, rfl⟩
        have hd : d.char = '*' := Option.some.inj hstar
        rw [List.tail_cons] at htail
        simp [← htail, hc, hd, commentOpener]

/-- in front of `t` no comment opens, not even with its first character -/
theorem outsideComments_append_of_no_opener {code t : List Located}
    (h : ¬ commentOpener <:+: code.map Located.char ++ (t.map Located.char).take 1) :
    outsideComments .code (code ++ t) = code ++ outsideComments .code t := by
  induction code with
  | nil => rfl
  | cons c code ih =>
    rw [List.map_cons, List.cons_append, List.infix_cons_iff, not_or] at h
    rw [List.cons_append, List.cons_append, outsideComments_cons, ih h.2]
    rintro ⟨hc, hstar, _⟩
    refine h.1 (pair_prefix_cons.2 ⟨hc, ?_⟩)
    cases code with
    | nil =>
      rw [List.nil_append] at hstar
      rw [List.map_nil, List.nil_append, List.head?_take, if_neg Nat.one_ne_zero, hstar]
    | cons d code => exact hstar

/-- a comment is read up to its first closer -/
theorem outsideComments_comment_append {body rest : List Located} {x y : Located}
    (hb : ¬ commentCloser <:+: body.map Located.char) (hx : x.char = '*') (hy : y.char = '/') :
    outsideComments .comment (body ++ x :: y :: rest) = outsideComments .code rest := by
  induction body with
  | nil => exact if_pos ⟨hx, hy⟩
  | cons a body ih =>
    rw [List.map_cons, List.infix_cons_iff, commentCloser, pair_prefix_cons, not_or] at hb
    rw [← ih hb.2]
    cases body with
    | nil =>
      refine if_neg ?_
      rintro ⟨_, hslash⟩
      rw [hx] at hslash
      exact absurd hslash (by decide)
    | cons b body =>
      refine if_neg ?_
      rintro ⟨ha, hslash⟩
      exact hb.1 ⟨ha, by simp [hslash]⟩

theorem outsideComments_first {code comment rest : List Located}
    (h : IsFirstComment (code.map Located.char) (comment.map Located.char)
      (rest.map Located.char)) :
    outsideComments .code (code ++ (comment ++ rest)) = code ++ outsideComments .code rest := by
  obtain ⟨body', hbody, hcomment⟩ := h.no_closer
  obtain ⟨opener, tail, rfl, hopener, htail⟩ := List.map_eq_append_iff.1 hcomment
  obtain ⟨body, closer, rfl, rfl, hcloser⟩ := List.map_eq_append_iff.1 htail
  obtain ⟨o, p, rfl, ho, hp⟩ : ∃ o p, opener = [o, p] ∧ o.char = '/' ∧ p.char = '*' := by
    simpa [commentOpener, List.map_eq_cons_iff, and_assoc] using hopener
  obtain ⟨x, y, rfl, hx, hy⟩ : ∃ x y, closer = [x, y] ∧ x.char = '*' ∧ y.char = '/' := by
    simpa [commentCloser, List.map_eq_cons_iff, and_assoc] using hcloser
  rw [outsideComments_append_of_no_opener]
  · congr 1
    have hall : [o, p] ++ (body ++ [x, y]) ++ rest = o :: p :: (body ++ x :: y :: rest) := by simp
    have hclose : closesComment (body ++ x :: y :: rest) = true :=
      closesComment_iff.2
        ⟨body.map Located.char, rest.map Located.char, by simp [commentCloser, hx, hy]⟩
    rw [hall, outsideComments, if_pos ⟨ho, hp, hclose⟩,
      outsideComments_comment_append hbody hx hy]
  · intro hin
    have htake : (([o, p] ++ (body ++ [x, y]) ++ rest).map Located.char).take 1 = ['/'] := by
      simp [ho]
    rw [htake] at hin
    rcases pair_infix_concat hin with hin | ⟨_, hc⟩
    · exact h.no_opener hin
    · exact absurd hc (by decide)

/-- reading character by character deletes one first comment after the other -/
theorem Uncommented.dropComments_eq {t kept : List Located}
    (h : Uncommented Located.char t kept) : dropComments t = kept := by
  unfold dropComments
  induction h with
  | none h => exact outsideComments_of_none h
  | first hc _ ih => rw [outsideComments_first hc, ih]

theorem uncommented_dropComments (t : List Located) :
    Uncommented Located.char t (dropComments t) := by
  obtain ⟨kept, h⟩ := exists_uncommented Located.char t
  rwa [h.dropComments_eq]

theorem Uncommented.sublist {α : Type} {char : α → Char} {t kept : List α}
    (h : Uncommented char t kept) : kept.Sublist t := by
  induction h with
  | none _ => exact List.Sublist.refl _
  | first _ _ ih => exact (ih.trans (List.sublist_append_right _ _)).append_left _

/-- only one text is left -/
theorem Uncommented.unique {α : Type} {char : α → Char} {f : α → Located}
    (hf : ∀ a, (f a).char = char a) (hinj : Function.Injective f) {t k l : List α}
    (hk : Uncommented char t k) (hl : Uncommented char t l) : k = l :=
  List.map_injective_iff.2 hinj
    ((hk.map hf).dropComments_eq.symm.trans (hl.map hf).dropComments_eq)

/-! ## two texts in a row -/

/-- no comment opens after the last complete one -/
inductive ClosesComments : Text → Prop
  | code {t : Text} (h : ¬ commentOpener <:+: t) : ClosesComments t
  | comment {code comment rest : Text} (hc : IsFirstComment code comment rest)
      (h : ClosesComments rest) : ClosesComments (code ++ (comment ++ rest))

theorem IsBlockComment.marks {a m z : Text} (h : IsBlockComment m) :
    commentOpener <:+: a ++ (m ++ z) ∧ commentCloser <:+: a ++ (m ++ z) := by
  obtain ⟨body, rfl⟩ := h
  exact ⟨⟨a, body ++ commentCloser ++ z, by simp⟩, ⟨a ++ commentOpener ++ body, z, by simp⟩⟩

theorem dropComments_of_no_opener {t : List Located}
    (h : ¬ commentOpener <:+: t.map Located.char) : dropComments t = t :=
  outsideComments_of_none fun _ _ _ heq hm => h (heq ▸ hm.marks.1)

theorem dropComments_of_no_closer {t : List Located}
    (h : ¬ commentCloser <:+: t.map Located.char) : dropComments t = t :=
  outsideComments_of_none fun _ _ _ heq hm => h (heq ▸ hm.marks.2)

/-- a text that leaves no comment open is read to its end; what is left of `w` only depends on the
code between the last comment and `w` -/
theorem ClosesComments.dropComments_append {t w kept : List Located}
    (h : ClosesComments (t.map Located.char))
    (hw : ∀ code, code <:+ t → ¬ commentOpener <:+: code.map Located.char →
      dropComments (code ++ w) = code ++ kept) :
    dropComments (t ++ w) = dropComments t ++ kept := by
  generalize hs : t.map Located.char = s at h
  induction h generalizing t with
  | code h =>
    subst hs
    rw [dropComments_of_no_opener h]
    exact hw t (List.suffix_refl t) h
  | comment hc h ih =>
    obtain ⟨code, t', rfl, rfl, ht'⟩ := List.map_eq_append_iff.1 hs
    obtain ⟨comment, rest, rfl, rfl, rfl⟩ := List.map_eq_append_iff.1 ht'
    have hsuffix : rest <:+ code ++ (comment ++ rest) :=
      (List.suffix_append comment rest).trans (List.suffix_append code _)
    have hrest : dropComments (rest ++ w) = dropComments rest ++ kept :=
      ih (fun last hlast => hw last (hlast.trans hsuffix)) rfl
    have hsplit : code ++ (comment ++ rest) ++ w = code ++ (comment ++ (rest ++ w)) := by simp
    rw [hsplit, dropComments, outsideComments_first (hc.with_rest _), dropComments,
      outsideComments_first hc, List.append_assoc]
    exact congrArg (code ++ ·) hrest

/-- two texts are read each for itself, if the first leaves no comment open and none opens between
the two -/
theorem dropComments_append {t w : List Located} (h : ClosesComments (t.map Located.char))
    (hb : (t.map Located.char).getLast? = some '/' → (w.map Located.char).head? ≠ some '*') :
    dropComments (t ++ w) = dropComments t ++ dropComments w := by
  refine h.dropComments_append fun code ⟨before, hcode⟩ hopen => ?_
  -- an opener that is not in the code alone would stand across the border
  refine outsideComments_append_of_no_opener fun hin => ?_
  cases hw : w.map Located.char with
  | nil =>
    rw [hw, List.take_nil, List.append_nil] at hin
    exact hopen hin
  | cons c r =>
    rw [hw, List.take_succ_cons, List.take_zero] at hin
    rcases pair_infix_concat hin with hin | ⟨hlast, hc⟩
    · exact hopen hin
    · refine hb ?_ (by rw [hw, hc]; rfl)
      rw [← hcode, List.map_append, List.getLast?_append, hlast]
      rfl

/-- a comment behind such a text is left out, and what follows it is read for itself -/
theorem dropComments_comment {t comment w : List Located} (h : ClosesComments (t.map Located.char))
    {body : Text} (hbody : ¬ commentCloser <:+: body)
    (hcomment : comment.map Located.char = commentOpener ++ (body ++ commentCloser)) :
    dropComments (t ++ (comment ++ w)) = dropComments t ++ dropComments w :=
  h.dropComments_append fun _ _ hopen =>
    outsideComments_first (isFirstComment_iff.2 ⟨hopen, body, hbody, hcomment⟩)

/-- a comment that ends behind `t` ends with a closer there, or with the slash of one -/
theorem isBlockComment_append {a m z t w : Text} (hm : IsBlockComment m)
    (heq : t ++ w = a ++ (m ++ z)) (hw : ¬ commentCloser <:+: w) (hb : w.head? ≠ some '/') :
    ∃ u, t = a ++ (m ++ u) := by
  obtain ⟨body, rfl⟩ := hm
  rw [← List.append_assoc] at heq
  rcases List.append_eq_append_iff.1 heq with ⟨u, hu, rfl⟩ | ⟨u, rfl, _⟩
  · rcases List.eq_nil_or_concat' u with rfl | ⟨u, c, rfl⟩
    · exact ⟨[], by rw [List.append_nil, hu, List.append_nil]⟩
    · have hslash : (a ++ (commentOpener ++ (body ++ ['*']))) ++ ['/'] = (t ++ u) ++ [c] := by
        simpa [commentCloser] using hu
      obtain ⟨hstar, hc⟩ := List.append_inj' hslash rfl
      obtain rfl := (List.cons.inj hc).1
      rcases List.eq_nil_or_concat' u with rfl | ⟨u, d, rfl⟩
      · exact absurd rfl hb
      · have hstar' : (a ++ (commentOpener ++ body)) ++ ['*'] = (t ++ u) ++ [d] := by
          simpa using hstar
        obtain rfl := (List.cons.inj (List.append_inj' hstar' rfl).2).1
        exact absurd ⟨u, z, by simp [commentCloser]⟩ hw
  · exact ⟨u, List.append_assoc _ _ _⟩

/-- a text that closes no comment is kept, whatever stands in front of it -/
theorem dropComments_append_of_no_closer {t w : List Located}
    (hw : ¬ commentCloser <:+: w.map Located.char)
    (hb : (w.map Located.char).head? ≠ some '/') :
    dropComments (t ++ w) = dropComments t ++ w := by
  have h := uncommented_dropComments t
  generalize dropComments t = kept at h
  induction h with
  | none h =>
    refine outsideComments_of_none fun a m z heq hm => ?_
    rw [List.map_append] at heq
    obtain ⟨u, hu⟩ := isBlockComment_append hm heq hw hb
    exact h a m u hu hm
  | @first code comment rest kept hc h ih =>
    rw [List.append_assoc, List.append_assoc, dropComments,
      outsideComments_first (hc.with_rest _), List.append_assoc]
    exact congrArg (code ++ ·) ih

end CodeChart
