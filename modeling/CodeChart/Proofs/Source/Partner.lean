import CodeChart.Proofs.Source.CaseLabel

/-!
# The partner of a parenthesis

Parentheses are counted twice: by the search for the one that closes a group, which decides where a
header ends, and by the reader that cuts a line into statements.  Both take the same characters for
literals and come to the same depths, so the group of a header is never cut.

* `scanned`                 the reader in front of a position, and what it cut off before;
* `Reader.IsClear`          no literal and no parenthesis is open;
* `Reader.read_inside`      as long as the partner is not met, the reader keeps what it reads and
                            stands as deep as the search;
* `Reader.read_partner`     at the partner it is clear again;
* `IsFirstClear`, `closingParen?_iff_firstClear`   the two agree at every parenthesis in the open.
-/

namespace CodeChart

/-! ## the reader at a position -/

/-- in front of the character at `n`, or behind the text if there is none -/
def scanned (t : Text) (n : Nat) : Reader × List Text := Reader.fresh.read (t.take n) (t.drop n)

theorem scanned_append (a b : Text) (n : Nat) :
    scanned (a ++ b) (a.length + n) =
      (((Reader.fresh.read a b).1.read (b.take n) (b.drop n)).1,
        (Reader.fresh.read a b).2
          ++ ((Reader.fresh.read a b).1.read (b.take n) (b.drop n)).2) := by
  rw [scanned, List.take_length_add_append, List.drop_length_add_append, Reader.read_append,
    List.take_append_drop]

def Reader.IsClear (r : Reader) : Prop := r.mode.literal = .outside ∧ r.parens = 0

theorem Reader.not_isEnclosed_between (pending : Text) :
    ¬ (Reader.between pending).IsEnclosed := by
  rintro (⟨q, h | h⟩ | h | h)
  · cases h
  · cases h
  · exact Nat.lt_irrefl 0 h
  · exact Nat.lt_irrefl 0 h

/-! ## a text inside a group -/

section
variable {r : Reader} {l : Literal} (hm : r.mode = .code l) (hp : 0 < r.parens)
include hm hp

/-- up to the partner, nothing is cut off and the search goes on from where the reader is -/
theorem Reader.read_inside {a b : Text}
    (h : ∀ i, closeOffset? r.parens l (a ++ b) = some i → a.length ≤ i) :
    ∃ l' parens, 0 < parens ∧
      r.read a b = (⟨.code l', parens, r.initializers, a.reverse ++ r.pending⟩, []) ∧
      closeOffset? r.parens l (a ++ b) = (closeOffset? (parens : Nat) l' b).map (· + a.length) := by
  induction a generalizing r l with
  | nil =>
    refine ⟨l, r.parens, hp, ?_, ?_⟩
    · rw [Reader.read_nil, List.reverse_nil, List.nil_append, ← hm]
    · exact Option.map_id'.symm
  | cons c a ih =>
    rw [List.cons_append, closeOffset?_cons hp] at h ⊢
    have hne : parensAfter l r.parens c ≠ 0 := by
      intro hzero
      rw [if_pos hzero] at h
      exact absurd (h 0 rfl) (Nat.not_succ_le_zero _)
    rw [if_neg hne] at h ⊢
    obtain ⟨l', parens, hpos, hread, hclose⟩ :=
      @ih ⟨.code (l.next c), parensAfter l r.parens c, r.initializers, c :: r.pending⟩ _ rfl
        (Nat.pos_of_ne_zero hne) fun i hi => by
          have hle := h (i + 1) (by rw [hi]; rfl)
          exact Nat.le_of_succ_le_succ hle
    refine ⟨l', parens, hpos, ?_, ?_⟩
    · rw [Reader.read_cons, Reader.step_of_parens hm hp, hread, List.reverse_cons,
        List.append_assoc]
      rfl
    · rw [hclose, Option.map_map]
      rfl

theorem Reader.not_clear_inside {a b : Text}
    (h : ∀ i, closeOffset? r.parens l (a ++ b) = some i → a.length ≤ i) :
    ¬ (r.read a b).1.IsClear := by
  obtain ⟨l', parens, hpos, hread, _⟩ := Reader.read_inside hm hp h
  rw [hread]
  exact fun hclear => Nat.ne_of_gt hpos hclear.2

/-- with the partner, the whole group is kept, and nothing is open any more -/
theorem Reader.read_partner {t : Text} {i : Nat} (h : closeOffset? r.parens l t = some i) :
    r.read (t.take (i + 1)) (t.drop (i + 1)) =
      (⟨.code .outside, 0, r.initializers, (t.take (i + 1)).reverse ++ r.pending⟩, []) := by
  have hlt := closeOffset?_lt h
  have hlength : (t.take i).length = i := List.length_take_of_le (Nat.le_of_lt hlt)
  have hnext : t.drop i = t[i] :: t.drop (i + 1) := List.drop_eq_getElem_cons hlt
  have hsplit : closeOffset? r.parens l (t.take i ++ t.drop i) = some i := by
    rwa [List.take_append_drop]
  obtain ⟨l', parens, hpos, hread, hclose⟩ := Reader.read_inside hm hp fun j hj => by
    rw [hsplit] at hj
    rw [hlength, Option.some.inj hj]
  -- the search ends with the very next character
  have hzero : parensAfter l' parens t[i] = 0 := by
    by_contra hne
    rw [hsplit, hnext, closeOffset?_cons hpos, if_neg hne, Option.map_map] at hclose
    obtain ⟨k, _, hk⟩ := Option.map_eq_some_iff.1 hclose.symm
    simp only [Function.comp_apply, hlength] at hk
    omega
  have houtside : l'.next t[i] = .outside := by
    obtain ⟨rfl, hpartner, _⟩ := eq_of_parensAfter_eq_zero hpos hzero
    rw [hpartner]
    rfl
  rw [hnext] at hread
  rw [List.take_succ_eq_append_getElem hlt, Reader.read_append, List.singleton_append, hread,
    Reader.read_cons, List.nil_append, Reader.step_of_parens rfl hpos, hzero,
    houtside, List.reverse_append]
  rfl

end

/-! ## the two searches -/

/-- behind the character at `i` the reader is clear for the first time since the one at `o` -/
structure IsFirstClear (t : Text) (o i : Nat) : Prop where
  behind : o < i
  clear : (scanned t (i + 1)).1.IsClear
  first : ∀ n, o < n → n ≤ i → ¬ (scanned t n).1.IsClear

theorem IsFirstClear.unique {t : Text} {o i j : Nat} (hi : IsFirstClear t o i)
    (hj : IsFirstClear t o j) : i = j := by
  rcases Nat.lt_trichotomy i j with hlt | heq | hlt
  · exact absurd hi.clear (hj.first (i + 1) (by have := hi.behind; omega) hlt)
  · exact heq
  · exact absurd hj.clear (hi.first (j + 1) (by have := hj.behind; omega) hlt)

section
variable {before after pending : Text} {done : List Text}
  (hread : Reader.fresh.read before ('(' :: after) = (Reader.between pending, done))
include hread

/-- behind a parenthesis that opens in the open -/
theorem scanned_group (n : Nat) : scanned (before ++ '(' :: after) (before.length + (n + 1)) =
    ((Reader.read ⟨.code .outside, 1, 0, '(' :: pending⟩ (after.take n) (after.drop n)).1,
      done ++ (Reader.read ⟨.code .outside, 1, 0, '(' :: pending⟩ (after.take n)
        (after.drop n)).2) := by
  have hopen : (Reader.between pending).step '(' after
      = (⟨.code .outside, 1, 0, '(' :: pending⟩, []) := rfl
  rw [scanned_append, hread, List.take_succ_cons, List.drop_succ_cons, Reader.read_cons,
    List.take_append_drop, hopen]
  rfl

/-- a position behind the parenthesis, up to the partner if there is one -/
theorem not_clear_in_group {n : Nat} (hn : before.length < n)
    (h : ∀ i, closingParen? (before ++ '(' :: after) before.length = some i → n ≤ i) :
    ¬ (scanned (before ++ '(' :: after) n).1.IsClear := by
  obtain ⟨m, rfl⟩ := Nat.exists_eq_add_of_lt hn
  rw [Nat.add_assoc, scanned_group hread]
  refine Reader.not_clear_inside (l := .outside) rfl Nat.one_pos fun k hk => ?_
  rw [List.take_append_drop] at hk
  have hle := h (before.length + (k + 1)) (by rw [closingParen?_behind, hk]; rfl)
  have hlength := List.length_take_le m after
  omega

theorem scanned_partner {i : Nat}
    (h : closingParen? (before ++ '(' :: after) before.length = some i) :
    before.length < i ∧ scanned (before ++ '(' :: after) (i + 1) =
      (Reader.between ((((before ++ '(' :: after).take (i + 1)).drop before.length).reverse
        ++ pending), done) := by
  rw [closingParen?_behind] at h
  obtain ⟨k, hk, rfl⟩ := Option.map_eq_some_iff.1 h
  have hpartner := Reader.read_partner (r := ⟨.code .outside, 1, 0, '(' :: pending⟩)
    (l := .outside) rfl Nat.one_pos hk
  refine ⟨by omega, ?_⟩
  rw [Nat.add_assoc, scanned_group hread, hpartner, List.take_length_add_append, List.drop_left,
    List.take_succ_cons, List.reverse_cons, List.append_assoc, List.append_nil]
  rfl

theorem closingParen?_group_iff {i : Nat} :
    closingParen? (before ++ '(' :: after) before.length = some i
      ↔ IsFirstClear (before ++ '(' :: after) before.length i := by
  have hfirst : ∀ j, closingParen? (before ++ '(' :: after) before.length = some j →
      IsFirstClear (before ++ '(' :: after) before.length j := by
    intro j hj
    obtain ⟨hlt, hscan⟩ := scanned_partner hread hj
    refine ⟨hlt, ?_, fun n hn hle => not_clear_in_group hread hn fun k hk => ?_⟩
    · rw [hscan]
      exact ⟨rfl, rfl⟩
    · rw [hj] at hk
      rwa [← Option.some.inj hk]
  refine ⟨hfirst i, fun hi => ?_⟩
  cases h : closingParen? (before ++ '(' :: after) before.length with
  | none =>
    refine absurd hi.clear (not_clear_in_group hread (Nat.lt_succ_of_lt hi.behind) fun j hj => ?_)
    rw [h] at hj
    cases hj
  | some j => rw [hi.unique (hfirst j h)]

end

/-- **the two ways to count parentheses agree** at every parenthesis that opens outside literals,
parentheses and initializer lists: the partner that is searched for is where the reader is clear
again for the first time, and what the reader has then is what it had before, with the group behind
its pending text and nothing cut off; and there is no partner if and only if the reader is never
clear again -/
theorem closingParen?_iff_firstClear {t : Text} {o : Nat} (hopen : t[o]? = some '(')
    (hfree : ¬ (scanned t o).1.IsEnclosed) :
    (∀ i, closingParen? t o = some i ↔ IsFirstClear t o i) ∧
    (∀ i, closingParen? t o = some i → scanned t (i + 1) =
      ({ (scanned t o).1 with
          pending := ((t.take (i + 1)).drop o).reverse ++ (scanned t o).1.pending },
        (scanned t o).2)) ∧
    (closingParen? t o = none ↔ ∀ n, o < n → ¬ (scanned t n).1.IsClear) := by
  obtain ⟨hlt, hchar⟩ := List.getElem?_eq_some_iff.1 hopen
  obtain ⟨before, after, rfl, rfl⟩ : ∃ before after, t = before ++ '(' :: after ∧
      before.length = o := by
    refine ⟨t.take o, t.drop (o + 1), ?_, List.length_take_of_le (Nat.le_of_lt hlt)⟩
    rw [← hchar, ← List.drop_eq_getElem_cons hlt, List.take_append_drop]
  have hread : scanned (before ++ '(' :: after) before.length
      = Reader.fresh.read before ('(' :: after) := by
    rw [scanned, List.take_left, List.drop_left]
  -- where a parenthesis comes next, no brace or semicolon is waited for
  have hbetween : (scanned (before ++ '(' :: after) before.length).1
      = Reader.between (scanned (before ++ '(' :: after) before.length).1.pending := by
    have htracks := Reader.Tracks.read (r := Reader.fresh) (t := before)
      (Reader.tracks_fresh (before ++ '(' :: after))
    rw [hread] at hfree ⊢
    exact (htracks.enclosed_or_between (by decide) (by decide) (by decide)).resolve_left hfree
  have hstart : Reader.fresh.read before ('(' :: after)
      = (Reader.between (scanned (before ++ '(' :: after) before.length).1.pending,
        (scanned (before ++ '(' :: after) before.length).2) :=
    hread.symm.trans (Prod.ext hbetween rfl)
  refine ⟨fun i => closingParen?_group_iff hstart, fun i hi => ?_, ?_, ?_⟩
  · rw [(scanned_partner hstart hi).2, hbetween]
    rfl
  · intro hnone n hn
    refine not_clear_in_group hstart hn fun i hi => ?_
    rw [hnone] at hi
    cases hi
  · intro hnever
    refine Option.eq_none_iff_forall_ne_some.2 fun i hi => ?_
    have hfirst := (closingParen?_group_iff hstart).1 hi
    exact hnever (i + 1) (Nat.lt_succ_of_lt hfirst.behind) hfirst.clear

/-- a parenthesis in a literal of a call, and a call that ends in an escape -/
theorem firstClear_of_call :
    let call := "a; f(')', g(x)); b();".toList
    let torn := "f(g(x), \"\\".toList
    (call[4]? = some '(' ∧ ¬ (scanned call 4).1.IsEnclosed ∧ closingParen? call 4 = some 14 ∧
      IsFirstClear call 4 14) ∧
    (torn[1]? = some '(' ∧ ¬ (scanned torn 1).1.IsEnclosed ∧ closingParen? torn 1 = none ∧
      ∀ n, 1 < n → ¬ (scanned torn n).1.IsClear) := by
  intro call torn
  have hcall : (scanned call 4).1 = Reader.between "f ".toList := by decide +kernel
  have htorn : (scanned torn 1).1 = Reader.between "f".toList := by decide +kernel
  have hfree : ¬ (scanned call 4).1.IsEnclosed := hcall ▸ Reader.not_isEnclosed_between _
  have hfree' : ¬ (scanned torn 1).1.IsEnclosed := htorn ▸ Reader.not_isEnclosed_between _
  have hsome : closingParen? call 4 = some 14 := by decide +kernel
  have hnone : closingParen? torn 1 = none := by decide +kernel
  exact ⟨⟨by decide, hfree, hsome, ((closingParen?_iff_firstClear (by decide) hfree).1 14).1 hsome⟩,
    ⟨by decide, hfree', hnone, (closingParen?_iff_firstClear (by decide) hfree').2.2.1 hnone⟩⟩

end CodeChart
