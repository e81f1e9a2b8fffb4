import CodeChart.Proofs.Source.FirstWord
import CodeChart.Proofs.Text.Pieces

/-!
# The two ends of a text

Where a text begins and ends for a reader, when other texts stand around it.

* `nextVisible_append`, `lastVisible`   the first and the last character that can be seen;
* `trimLeft_append_cons`, `trim_append_cons`   trimming stops at a visible character;
* `trim_blank_append`, `trim_append_blank`     blanks around a text do not change what is trimmed;
* `startsWithWord_append`   a word in front of a text that does not go on with it;
* `opensInitializer_append`   an initializer is told by the nearest characters alone.
-/

namespace CodeChart

/-! ## visible characters -/

theorem nextVisible_append (a b : Text) :
    nextVisible (a ++ b) = (nextVisible a).or (nextVisible b) := List.find?_append

theorem nextVisible_cons_of_visible {c : Char} (h : isBlank c = false) (t : Text) :
    nextVisible (c :: t) = some c := by
  simp [nextVisible, h]

theorem nextVisible_eq_none_iff {t : Text} : nextVisible t = none ↔ allBlank t = true := by
  simp [nextVisible, allBlank]

theorem nextVisible_blank_append {gap : Text} (h : allBlank gap = true) (t : Text) :
    nextVisible (gap ++ t) = nextVisible t := by
  rw [nextVisible_append, nextVisible_eq_none_iff.2 h, Option.none_or]

theorem isBlank_of_nextVisible {t : Text} {c : Char} (h : nextVisible t = some c) :
    isBlank c = false := by
  simpa using List.find?_some h

theorem exists_nextVisible {t : Text} {c : Char} (h : nextVisible t = some c) :
    ∃ gap rest, allBlank gap = true ∧ t = gap ++ c :: rest := by
  obtain ⟨_, gap, rest, ht, hgap⟩ := List.find?_eq_some_iff_append.1 h
  refine ⟨gap, rest, ?_, ht⟩
  simpa [allBlank] using hgap

def lastVisible (t : Text) : Option Char := nextVisible t.reverse

theorem lastVisible_append_cons {d : Char} {gap : Text} (hd : isBlank d = false)
    (hg : allBlank gap = true) (t : Text) : lastVisible (t ++ d :: gap) = some d := by
  have hrev : allBlank gap.reverse = true := by rwa [allBlank, List.all_reverse]
  rw [lastVisible, List.reverse_append, List.reverse_cons, List.append_assoc,
    nextVisible_blank_append hrev]
  exact nextVisible_cons_of_visible hd t.reverse

/-- a text is blank, or it has a last visible character -/
theorem exists_lastVisible (t : Text) : allBlank t = true ∨
    ∃ s d gap, t = s ++ d :: gap ∧ isBlank d = false ∧ allBlank gap = true := by
  cases h : nextVisible t.reverse with
  | none =>
    left
    have hall := nextVisible_eq_none_iff.1 h
    rwa [allBlank, List.all_reverse] at hall
  | some d =>
    right
    obtain ⟨gap, rest, hgap, ht⟩ := exists_nextVisible h
    refine ⟨rest.reverse, d, gap.reverse, ?_, isBlank_of_nextVisible h, ?_⟩
    · have hrev := congrArg List.reverse ht
      rw [List.reverse_reverse] at hrev
      rw [hrev]
      simp
    · rwa [allBlank, List.all_reverse]

/-! ## trimming -/

theorem trimLeft_blank_append {gap : Text} (h : allBlank gap = true) (t : Text) :
    trimLeft (gap ++ t) = trimLeft t := by
  rw [trimLeft, List.dropWhile_append_of_pos (List.all_eq_true.1 h)]
  rfl

theorem trimLeft_append_cons {d : Char} (hd : isBlank d = false) (x z : Text) :
    trimLeft (x ++ d :: z) = trimLeft x ++ d :: z := by
  induction x with
  | nil => exact trimLeft_cons_of_visible hd z
  | cons c x ih =>
    cases hc : isBlank c with
    | true => rw [List.cons_append, trimLeft_cons_of_blank hc, ih, trimLeft_cons_of_blank hc]
    | false => rw [List.cons_append, trimLeft_cons_of_visible hc, trimLeft_cons_of_visible hc,
        List.cons_append]

theorem trimRight_append_cons {d : Char} (hd : isBlank d = false) (x z : Text) :
    trimRight (x ++ d :: z) = x ++ d :: trimRight z := by
  have hrev : (x ++ d :: z).reverse = z.reverse ++ d :: x.reverse := by simp
  have hleft : trimLeft (x ++ d :: z).reverse = trimLeft z.reverse ++ d :: x.reverse := by
    rw [hrev, trimLeft_append_cons hd]
  show (trimLeft (x ++ d :: z).reverse).reverse = x ++ d :: (trimLeft z.reverse).reverse
  rw [hleft]
  simp

theorem trim_append_cons {d : Char} (hd : isBlank d = false) (x z : Text) :
    trim (x ++ d :: z) = trimLeft x ++ d :: trimRight z := by
  rw [trim, trimLeft_append_cons hd, trimRight_append_cons hd]

theorem trim_blank_append {gap : Text} (h : allBlank gap = true) (t : Text) :
    trim (gap ++ t) = trim t := by
  rw [trim, trimLeft_blank_append h, trim]

theorem trim_append_blank {gap : Text} (h : allBlank gap = true) (t : Text) :
    trim (t ++ gap) = trim t := by
  rcases exists_lastVisible t with ht | ⟨s, d, more, rfl, hd, _⟩
  · rw [trim_of_allBlank (allBlank_append ht h), trim_of_allBlank ht]
  · have hright : ∀ u : Text, trimRight (u ++ gap) = trimRight u := by
      intro u
      have hrev : allBlank gap.reverse = true := by rwa [allBlank, List.all_reverse]
      show (trimLeft (u ++ gap).reverse).reverse = (trimLeft u.reverse).reverse
      rw [List.reverse_append, trimLeft_blank_append hrev]
    rw [List.append_assoc, List.cons_append, trim_append_cons hd, trim_append_cons hd, hright]

/-! ## words -/

/-- a word is read in front of a text that does not go on with it -/
theorem startsWithWord_append {w u : Text} (hw : w.all isWord = true)
    (hu : continuesWord u = false) (t : Text) :
    startsWithWord w (t ++ u) = startsWithWord w t := by
  have hiff : ∀ t : Text,
      startsWithWord w t = true ↔ ∃ r, t = w ++ r ∧ continuesWord r = false := by
    intro t
    rw [startsWithWord, Option.isSome_iff_exists]
    simp only [afterWord?_eq_some_iff]
  rw [Bool.eq_iff_iff, hiff, hiff]
  constructor
  · rintro ⟨r, ht, hr⟩
    obtain ⟨s, rfl⟩ := prefix_of_letters hw hu ⟨r, ht.symm⟩
    refine ⟨s, rfl, ?_⟩
    rw [List.append_assoc, List.append_cancel_left_eq] at ht
    cases s with
    | nil => rfl
    | cons c s =>
      rw [← ht] at hr
      exact hr
  · rintro ⟨s, rfl, hs⟩
    refine ⟨s ++ u, List.append_assoc _ _ _, ?_⟩
    cases s with
    | nil => exact hu
    | cons c s => exact hs

/-- what stands in front of `pending`, read from its end, does not open an initializer -/
theorem opensInitializer_append {u : Text} (hu : continuesWord u = false)
    (hi : opensInitializer u = false) (pending : Text) :
    opensInitializer (pending ++ u) = opensInitializer pending := by
  have hword : ∀ t : Text, opensInitializer t
      = ((trimLeft t).head? == some '=' || (trimLeft t).head? == some ','
        || startsWithWord "return".toList.reverse (trimLeft t)) := by
    intro t
    have hsome : ∀ w v : Text, startsWithWord w v
        = (w.isPrefixOf v && !continuesWord (v.drop w.length)) := by
      intro w v
      unfold startsWithWord afterWord?
      cases w.isPrefixOf v && !continuesWord (v.drop w.length) <;> rfl
    rw [hsome]
    rfl
  cases hv : nextVisible pending with
  | none =>
    have hb := nextVisible_eq_none_iff.1 hv
    rw [hword, trimLeft_blank_append hb, ← hword, hi, hword, trimLeft_of_allBlank hb]
    decide
  | some d =>
    obtain ⟨gap, rest, hgap, rfl⟩ := exists_nextVisible hv
    have hd := isBlank_of_nextVisible hv
    rw [hword, hword, List.append_assoc, trimLeft_blank_append hgap, trimLeft_blank_append hgap,
      List.cons_append, trimLeft_cons_of_visible hd, trimLeft_cons_of_visible hd,
      ← List.cons_append, startsWithWord_append (by decide +kernel) hu]
    rfl

end CodeChart
