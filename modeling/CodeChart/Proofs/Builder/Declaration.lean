import CodeChart.Proofs.Builder.Step

/-!
# The bodies of declarations

A declaration header starts a count of open braces, and everything is ignored until the count is
back at zero.  The count does not see every brace: a directive or a template header adds nothing,
whatever braces it holds, and a declaration header inside a body adds one or nothing.

* `countedBraces`         what a statement in a body adds to the count;
* `HasCountedBraces`      the statements whose braces all count (`countedBraces_eq_iff`);
* `Builder.feedAll_ignoring`   while the count is positive it is all that statements change;
* `IsDeclarationBody`     a header, the statements of its body and the one that closes it, told by
                          the braces they hold;
* `Builder.Excludes`      the chart and the scopes stay as they were, and the count is positive
                          until the closing statement and zero behind it;
* `Builder.excludes_iff`  a body is excluded if and only if the braces that count close where all
                          of its braces do.
-/

namespace CodeChart

/-! ## the braces that count -/

def countedBraces (t : Text) : Int :=
  if declares t then (if opensScope t then 1 else 0)
  else if isSkipped t then 0
  else braceBalance t

/-- a header of at most one open brace, a skipped statement of none, or any other statement -/
structure HasCountedBraces (t : Text) : Prop where
  header : declares t = true → braceBalance t = 0 ∨ braceBalance t = 1
  skipped : declares t = false → isSkipped t = true → braceBalance t = 0

theorem countedBraces_eq_iff (t : Text) :
    countedBraces t = braceBalance t ↔ HasCountedBraces t := by
  unfold countedBraces
  split
  · rename_i hd
    have hsum : (if opensScope t then (1 : Int) else 0) = braceBalance t ↔
        braceBalance t = 0 ∨ braceBalance t = 1 := by
      unfold opensScope
      simp only [decide_eq_true_eq]
      split <;> omega
    rw [hsum]
    exact ⟨fun h => ⟨fun _ => h, fun hn => by rw [hd] at hn; cases hn⟩, fun h => h.header hd⟩
  · rename_i hd
    split
    · rename_i hs
      rw [eq_comm]
      exact ⟨fun h => ⟨fun ht => absurd ht hd, fun _ _ => h⟩,
        fun h => h.skipped (Bool.eq_false_iff.2 hd) hs⟩
    · rename_i hs
      exact ⟨fun _ => ⟨fun ht => absurd ht hd, fun _ ht => absurd ht hs⟩, fun _ => rfl⟩

def sumOf (f : Text → Int) : List Statement → Int
  | [] => 0
  | s :: ss => f s.text + sumOf f ss

def braceSum (ss : List Statement) : Int := sumOf braceBalance ss

def countedSum (ss : List Statement) : Int := sumOf countedBraces ss

theorem countedSum_nil : countedSum [] = 0 := rfl
theorem countedSum_cons (s : Statement) (ss : List Statement) :
    countedSum (s :: ss) = countedBraces s.text + countedSum ss := rfl

theorem countedSum_eq_braceSum {ss : List Statement} (h : ∀ s ∈ ss, HasCountedBraces s.text) :
    countedSum ss = braceSum ss := by
  induction ss with
  | nil => rfl
  | cons s ss ih =>
    obtain ⟨hs, hss⟩ := List.forall_mem_cons.1 h
    show countedBraces s.text + countedSum ss = braceBalance s.text + braceSum ss
    rw [(countedBraces_eq_iff s.text).2 hs, ih hss]

/-! ## statements that are ignored -/

/-- inside a declaration a statement changes the count and nothing else -/
theorem Builder.feed_ignoring {b : Builder} (h : 0 < b.ignored) (s : Statement) :
    b.feed s = { b with ignored := ((b.ignored : Int) + countedBraces s.text).toNat } := by
  unfold Builder.feed Builder.braces countedBraces
  by_cases hd : declares s.text = true
  · by_cases ho : opensScope s.text = true
    · simp only [if_pos hd, if_pos ho]
      rfl
    · simp [if_pos hd, if_neg ho]
  · by_cases hs : isSkipped s.text = true
    · simp [if_neg hd, if_pos hs]
    · simp [if_neg hd, if_neg hs, h]

/-- as long as the count is positive in front of every statement -/
theorem Builder.feedAll_ignoring {b : Builder} {ss : List Statement}
    (h : ∀ j < ss.length, 1 ≤ (b.ignored : Int) + countedSum (ss.take j)) :
    b.feedAll ss = { b with ignored := ((b.ignored : Int) + countedSum ss).toNat } := by
  induction ss generalizing b with
  | nil => simp [Builder.feedAll_nil, countedSum_nil]
  | cons s ss ih =>
    have hpos : 0 < b.ignored := by
      have := h 0 (Nat.zero_lt_succ _)
      simp only [List.take_zero, countedSum_nil] at this
      omega
    rw [Builder.feedAll_cons, Builder.feed_ignoring hpos, countedSum_cons]
    cases ss with
    | nil => simp [Builder.feedAll_nil, countedSum_nil]
    | cons t ss =>
      -- there is one more statement, so the count is still exact in front of it
      have hnext : (((b.ignored : Int) + countedBraces s.text).toNat : Int)
          = (b.ignored : Int) + countedBraces s.text := by
        have := h 1 (by simp)
        simp only [List.take_succ_cons, List.take_zero, countedSum_cons, countedSum_nil] at this
        omega
      rw [ih]
      · simp only [hnext, Int.add_assoc]
      · intro j hj
        have := h (j + 1) (Nat.succ_lt_succ hj)
        rw [List.take_succ_cons, countedSum_cons] at this
        simp only [hnext]
        omega

/-- a count that was never seen at zero is the sum of what was counted -/
theorem Builder.countedSum_pos_of_ignoring {b : Builder} {ss : List Statement}
    (h : ∀ j ≤ ss.length, 0 < (b.feedAll (ss.take j)).ignored) :
    ∀ j ≤ ss.length, 1 ≤ (b.ignored : Int) + countedSum (ss.take j) := by
  intro j
  induction j using Nat.strongRecOn with
  | ind j ih =>
    intro hj
    have hbefore : ∀ i < (ss.take j).length,
        1 ≤ (b.ignored : Int) + countedSum ((ss.take j).take i) := by
      intro i hi
      have hij : i < j := by
        rw [List.length_take] at hi
        omega
      rw [List.take_take, Nat.min_eq_left (Nat.le_of_lt hij)]
      exact ih i hij (by omega)
    have hpos := h j hj
    rw [Builder.feedAll_ignoring hbefore] at hpos
    simp only at hpos
    omega

/-! ## a declaration with its body -/

/-- the braces of the header and the body are open until the last statement closes them -/
structure IsDeclarationBody (header : Statement) (body : List Statement) (closer : Statement) :
    Prop where
  declares : declares header.text = true
  opens : braceBalance header.text = 1
  inside : ∀ j ≤ body.length, 1 ≤ braceSum (header :: body.take j)
  closed : braceSum (header :: (body ++ [closer])) = 0

structure Builder.Excludes (b : Builder) (header : Statement) (body : List Statement)
    (closer : Statement) : Prop where
  nodes : (b.feedAll (header :: (body ++ [closer]))).nodes = b.nodes
  edges : (b.feedAll (header :: (body ++ [closer]))).edges = b.edges
  scopeIds : (b.feedAll (header :: (body ++ [closer]))).scopeIds = b.scopeIds
  scopeKinds : (b.feedAll (header :: (body ++ [closer]))).scopeKinds = b.scopeKinds
  switches : (b.feedAll (header :: (body ++ [closer]))).switches = b.switches
  ignoring : ∀ j ≤ body.length, 0 < (b.feedAll (header :: body.take j)).ignored
  done : (b.feedAll (header :: (body ++ [closer]))).ignored = 0

instance (header : Statement) (body : List Statement) (closer : Statement) :
    Decidable (IsDeclarationBody header body closer) :=
  decidable_of_iff (CodeChart.declares header.text = true ∧ braceBalance header.text = 1 ∧
      (∀ j ≤ body.length, 1 ≤ braceSum (header :: body.take j)) ∧
      braceSum (header :: (body ++ [closer])) = 0)
    ⟨fun ⟨hd, ho, hi, hc⟩ => ⟨hd, ho, hi, hc⟩, fun ⟨hd, ho, hi, hc⟩ => ⟨hd, ho, hi, hc⟩⟩

theorem countedBraces_header {t : Text} (hd : declares t = true) (ho : braceBalance t = 1) :
    countedBraces t = 1 := by
  simp [countedBraces, hd, opensScope, ho]

theorem Builder.feed_header_ignoring {b : Builder} (hi : b.ignored = 0) {s : Statement}
    (hd : declares s.text = true) (ho : braceBalance s.text = 1) :
    b.feed s = { b with ignored := 1 } := by
  simp [Builder.feed, Builder.braces, hd, opensScope, ho, hi]

section
variable {b : Builder} {header closer : Statement} {body : List Statement}
  (hi : b.ignored = 0) (h : IsDeclarationBody header body closer)
include hi h

/-- behind the header the count is at one -/
theorem Builder.feedAll_declaration (ss : List Statement) :
    b.feedAll (header :: ss) = Builder.feedAll { b with ignored := 1 } ss := by
  rw [Builder.feedAll_cons, Builder.feed_header_ignoring hi h.declares h.opens]

theorem Builder.Excludes.counts (hx : b.Excludes header body closer) :
    (∀ j ≤ body.length, 1 ≤ countedSum (header :: body.take j)) ∧
      countedSum (header :: (body ++ [closer])) ≤ 0 := by
  have hone := countedBraces_header h.declares h.opens
  have hstates : ∀ j ≤ body.length,
      0 < (Builder.feedAll { b with ignored := 1 } (body.take j)).ignored := by
    intro j hj
    rw [← Builder.feedAll_declaration hi h]
    exact hx.ignoring j hj
  have hsums := Builder.countedSum_pos_of_ignoring hstates
  have hall : ∀ j < (body ++ [closer]).length,
      1 ≤ (1 : Int) + countedSum ((body ++ [closer]).take j) := by
    intro j hj
    have hle : j ≤ body.length := by
      rw [List.length_append, List.length_singleton] at hj
      omega
    rw [List.take_append_of_le_length hle]
    exact hsums j hle
  constructor
  · intro j hj
    rw [countedSum_cons, hone]
    exact hsums j hj
  · have hdone := hx.done
    rw [Builder.feedAll_declaration hi h, Builder.feedAll_ignoring hall] at hdone
    rw [countedSum_cons, hone]
    exact Int.toNat_eq_zero.1 hdone

/-- while the braces that count are open, nothing else changes, and the closing statement brings the
builder back to what it was -/
theorem Builder.Excludes.of_counts
    (hopen : ∀ j ≤ body.length, 1 ≤ countedSum (header :: body.take j))
    (hclosed : countedSum (header :: (body ++ [closer])) ≤ 0) :
    b.Excludes header body closer ∧ b.feedAll (header :: (body ++ [closer])) = b := by
  have hone := countedBraces_header h.declares h.opens
  rw [countedSum_cons, hone] at hclosed
  have hbefore : ∀ j ≤ body.length, 1 ≤ (1 : Int) + countedSum (body.take j) := by
    intro j hj
    have := hopen j hj
    rwa [countedSum_cons, hone] at this
  have hstate : ∀ j ≤ body.length, 0 < (b.feedAll (header :: body.take j)).ignored := by
    intro j hj
    have hprefix : ∀ i < (body.take j).length,
        1 ≤ (1 : Int) + countedSum ((body.take j).take i) := by
      intro i hlt
      rw [List.length_take] at hlt
      rw [List.take_take, Nat.min_eq_left (by omega)]
      exact hbefore i (by omega)
    rw [Builder.feedAll_declaration hi h, Builder.feedAll_ignoring hprefix]
    have := hbefore j hj
    show 0 < ((1 : Int) + countedSum (body.take j)).toNat
    omega
  have hend : b.feedAll (header :: (body ++ [closer])) = b := by
    rw [Builder.feedAll_declaration hi h, Builder.feedAll_ignoring]
    · show { b with ignored := ((1 : Int) + countedSum (body ++ [closer])).toNat } = b
      rw [Int.toNat_eq_zero.2 hclosed, ← hi]
    · intro j hj
      rw [List.length_append, List.length_singleton] at hj
      rw [List.take_append_of_le_length (by omega)]
      exact hbefore j (by omega)
  refine ⟨⟨?_, ?_, ?_, ?_, ?_, hstate, ?_⟩, hend⟩
  · rw [hend]
  · rw [hend]
  · rw [hend]
  · rw [hend]
  · rw [hend]
  · rw [hend]
    exact hi

end

/-- **a declaration with its body is excluded if and only if the braces that count close where all
of its braces do**; then nothing at all is left of it.  So it is whenever the body holds no
directive or template header with an open brace or a brace too many, and no nested header of more
than one -/
theorem Builder.excludes_iff {b : Builder} {header closer : Statement} {body : List Statement}
    (hi : b.ignored = 0) (h : IsDeclarationBody header body closer) :
    (b.Excludes header body closer ↔
      (∀ j ≤ body.length, 1 ≤ countedSum (header :: body.take j)) ∧
        countedSum (header :: (body ++ [closer])) ≤ 0) ∧
    (b.Excludes header body closer → b.feedAll (header :: (body ++ [closer])) = b) ∧
    ((∀ s ∈ body ++ [closer], HasCountedBraces s.text) → b.Excludes header body closer) := by
  have hback := fun hopen hclosed => Builder.Excludes.of_counts hi h hopen hclosed
  refine ⟨⟨fun hx => hx.counts hi h, fun ⟨hopen, hclosed⟩ => (hback hopen hclosed).1⟩, ?_, ?_⟩
  · intro hx
    obtain ⟨hopen, hclosed⟩ := hx.counts hi h
    exact (hback hopen hclosed).2
  · intro hall
    have hheader : HasCountedBraces header.text :=
      (countedBraces_eq_iff _).1 (by rw [countedBraces_header h.declares h.opens, h.opens])
    have hsum : ∀ ss : List Statement, (∀ s ∈ ss, s ∈ body ++ [closer]) →
        countedSum (header :: ss) = braceSum (header :: ss) := by
      intro ss hss
      refine countedSum_eq_braceSum fun s hs => ?_
      rcases List.mem_cons.1 hs with rfl | hs
      · exact hheader
      · exact hall s (hss s hs)
    refine (hback ?_ ?_).1
    · intro j hj
      rw [hsum _ fun s hs => List.mem_append_left _ (List.mem_of_mem_take hs)]
      exact h.inside j hj
    · exact Int.le_of_eq ((hsum _ fun s hs => hs).trans h.closed)

/-- a function that is still open -/
def inFunction : Builder := Builder.fresh.feed ⟨"void g() \x7b".toList, 1⟩

/-- a class with a directive, a function and a nested structure -/
def plainClass : Statement × List Statement × Statement :=
  (⟨"class A \x7b".toList, 2⟩,
    [⟨"#define N 1".toList, 3⟩, ⟨"void f() \x7b".toList, 4⟩, ⟨"x();".toList, 5⟩, ⟨"\x7d".toList, 6⟩,
      ⟨"struct B \x7b".toList, 7⟩, ⟨"int y;".toList, 8⟩, ⟨"\x7d;".toList, 9⟩],
    ⟨"\x7d;".toList, 10⟩)

theorem excludes_plainClass :
    inFunction.ignored = 0 ∧ IsDeclarationBody plainClass.1 plainClass.2.1 plainClass.2.2 ∧
    (∀ s ∈ plainClass.2.1 ++ [plainClass.2.2], HasCountedBraces s.text) ∧
    inFunction.Excludes plainClass.1 plainClass.2.1 plainClass.2.2 := by
  have hi : inFunction.ignored = 0 := by decide +kernel
  have h : IsDeclarationBody plainClass.1 plainClass.2.1 plainClass.2.2 := by decide +kernel
  have hcounted : ∀ s ∈ plainClass.2.1 ++ [plainClass.2.2],
      countedBraces s.text = braceBalance s.text := by decide +kernel
  have hall : ∀ s ∈ plainClass.2.1 ++ [plainClass.2.2], HasCountedBraces s.text :=
    fun s hs => (countedBraces_eq_iff s.text).1 (hcounted s hs)
  exact ⟨hi, h, hall, (Builder.excludes_iff hi h).2.2 hall⟩

/-- a class with a function template; the brace behind the template header is not counted, but the
one that closes the function is -/
def templateClass : Statement × List Statement × Statement :=
  (⟨"class A \x7b".toList, 1⟩,
    [⟨"template <class T> void f() \x7b".toList, 2⟩, ⟨"x();".toList, 3⟩, ⟨"\x7d".toList, 4⟩,
      ⟨"int y;".toList, 5⟩],
    ⟨"\x7d;".toList, 6⟩)

/-- the member behind it gets a node -/
theorem templateClass_leaks :
    statements ("class A \x7b\ntemplate <class T> void f() \x7b\nx();\n\x7d\nint y;\n\x7d;").toList
      = templateClass.1 :: (templateClass.2.1 ++ [templateClass.2.2]) ∧
    IsDeclarationBody templateClass.1 templateClass.2.1 templateClass.2.2 ∧
    (Builder.fresh.feedAll (templateClass.1 :: (templateClass.2.1 ++ [templateClass.2.2]))).nodes
      ≠ Builder.fresh.nodes ∧
    ¬ Builder.fresh.Excludes templateClass.1 templateClass.2.1 templateClass.2.2 := by
  have hnodes : (Builder.fresh.feedAll
      (templateClass.1 :: (templateClass.2.1 ++ [templateClass.2.2]))).nodes
        ≠ Builder.fresh.nodes := by decide +kernel
  exact ⟨by decide +kernel, by decide +kernel, hnodes, fun hx => hnodes hx.nodes⟩

end CodeChart
