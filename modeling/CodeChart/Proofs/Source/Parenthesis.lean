import CodeChart.Source.Parenthesis

/-!
# The closing parenthesis, one character at a time

The search jumps over an escaped character, and is easier to follow next to a reader of the same
text when it takes every character by itself and a literal tells what it has to do with it.

* `depthAfter`        the parenthesis depth after a character that stands outside literals;
* `closeOffset?`      how many characters stand before the parenthesis that brings the depth to
                      zero;
* `searchClosing?_eq`, `closingParen?_eq`   the search finds this parenthesis, and when it starts
                      at an opening one, `closingParen?_behind` says how it goes on behind it;
* `getElem?_closingParen?`   which is one indeed.
-/

namespace CodeChart

/-- the depth after a character outside literals -/
def depthAfter (depth : Int) (c : Char) : Int :=
  if c = '(' then depth + 1 else if c = ')' then depth - 1 else depth

def closeOffset? (depth : Int) (l : Literal) : Text → Option Nat
  | [] => none
  | c :: rest =>
    if l = .outside then
      if c = ')' ∧ depth = 1 then some 0
      else (closeOffset? (depthAfter depth c) (l.next c) rest).map (· + 1)
    else (closeOffset? depth (l.next c) rest).map (· + 1)

/-- the literal that a quote has opened -/
def Literal.ofQuote : Option Char → Literal
  | none => .outside
  | some q => .within q

/-! ## the two agree -/

section
variable {depth : Int} {index : Nat} {c q : Char}

/-- one position further on -/
theorem map_succ_map_add (o : Option Nat) (index : Nat) :
    (o.map (· + 1)).map (index + ·) = o.map (index + 1 + ·) := by
  rw [Option.map_map]
  apply congrArg (Option.map · o)
  funext n
  show index + (n + 1) = index + 1 + n
  omega

theorem map_closeOffset?_outside (h : c = ')' → depth ≠ 1) (rest : Text) :
    (closeOffset? depth .outside (c :: rest)).map (index + ·)
      = (closeOffset? (depthAfter depth c) (Literal.outside.next c) rest).map
          (index + 1 + ·) := by
  rw [closeOffset?, if_pos rfl, if_neg (not_and.2 h), map_succ_map_add]

theorem map_closeOffset?_inside (l : Literal) (h : l ≠ .outside) (rest : Text) :
    (closeOffset? depth l (c :: rest)).map (index + ·)
      = (closeOffset? depth (l.next c) rest).map (index + 1 + ·) := by
  rw [closeOffset?, if_neg h, map_succ_map_add]

end

theorem searchClosing?_eq (quote : Option Char) (depth : Int) (index : Nat) (t : Text) :
    searchClosing? quote depth index t
      = (closeOffset? depth (.ofQuote quote) t).map (index + ·) := by
  fun_induction searchClosing? quote depth index t with
  | case1 => rfl
  | case2 => rfl
  | case3 depth index q d behind ih =>
    -- two positions at once, the second one without a look at what stands there
    rw [ih, Literal.ofQuote, map_closeOffset?_inside (.within q) (by simp)]
    exact (map_closeOffset?_inside (.escaped q) (by simp) behind).symm
  | case4 depth index rest q hq ih =>
    rw [ih, Literal.ofQuote, Literal.ofQuote, map_closeOffset?_inside (.within q) (by simp),
      Literal.next, if_neg hq, if_pos rfl]
  | case5 depth index c rest q hc hq ih =>
    rw [ih, Literal.ofQuote, map_closeOffset?_inside (.within q) (by simp), Literal.next,
      if_neg hc, if_neg hq]
  | case6 depth index c rest hquote ih =>
    have hdepth : depthAfter depth c = depth := by
      simp only [isQuote, Bool.or_eq_true, beq_iff_eq] at hquote
      rcases hquote with rfl | rfl <;> rfl
    have hclose : c ≠ ')' := by
      rintro rfl
      cases hquote
    rw [ih, Literal.ofQuote, Literal.ofQuote, map_closeOffset?_outside fun h => absurd h hclose,
      hdepth, Literal.next, if_pos hquote]
  | case7 depth index rest _ ih =>
    rw [ih, Literal.ofQuote, map_closeOffset?_outside (by simp)]
    rfl
  | case8 depth index rest hdepth =>
    have hone : depth = 1 := by omega
    rw [Literal.ofQuote, closeOffset?, if_pos rfl, if_pos ⟨rfl, hone⟩]
    rfl
  | case9 depth index rest hdepth _ _ ih =>
    have hone : depth ≠ 1 := by omega
    rw [ih, Literal.ofQuote, map_closeOffset?_outside fun _ => hone]
    rfl
  | case10 depth index c rest hquote hopen hclose ih =>
    rw [ih, Literal.ofQuote, map_closeOffset?_outside fun h => absurd h hclose, depthAfter,
      if_neg hopen, if_neg hclose, Literal.next, if_neg hquote]

theorem closingParen?_eq (t : Text) (start : Nat) :
    closingParen? t start = (closeOffset? 0 .outside (t.drop start)).map (start + ·) :=
  searchClosing?_eq none 0 start (t.drop start)

/-- behind the parenthesis that the search starts at, one group is open -/
theorem closingParen?_behind (before after : Text) :
    closingParen? (before ++ '(' :: after) before.length
      = (closeOffset? (1 : Nat) .outside after).map fun k => before.length + (k + 1) := by
  rw [closingParen?_eq, List.drop_left, closeOffset?, if_pos rfl, if_neg (by decide),
    Option.map_map]
  rfl

/-! ## what is found -/

/-- an answer is the position of a closing parenthesis -/
theorem getElem?_closeOffset? {depth : Int} {l : Literal} {t : Text} {i : Nat}
    (h : closeOffset? depth l t = some i) : t[i]? = some ')' := by
  induction t generalizing depth l i with
  | nil => cases h
  | cons c t ih =>
    rw [closeOffset?] at h
    split at h
    · split at h
      · rename_i hc
        obtain rfl := Option.some.inj h
        exact congrArg some hc.1
      · obtain ⟨j, hj, rfl⟩ := Option.map_eq_some_iff.1 h
        exact ih hj
    · obtain ⟨j, hj, rfl⟩ := Option.map_eq_some_iff.1 h
      exact ih hj

theorem closeOffset?_lt {depth : Int} {l : Literal} {t : Text} {i : Nat}
    (h : closeOffset? depth l t = some i) : i < t.length :=
  (List.getElem?_eq_some_iff.1 (getElem?_closeOffset? h)).1

theorem getElem?_closingParen? {t : Text} {start i : Nat} (h : closingParen? t start = some i) :
    t[i]? = some ')' := by
  rw [closingParen?_eq] at h
  obtain ⟨j, hj, rfl⟩ := Option.map_eq_some_iff.1 h
  have hc := getElem?_closeOffset? hj
  rwa [List.getElem?_drop] at hc

end CodeChart
