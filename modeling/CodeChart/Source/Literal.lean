import CodeChart.Text.Basic

/-!
# String and character literals

A literal opens at a double or single quote and closes at the next quote of the same kind; in
it a backslash takes the next character with it.

* `Literal`       where a reader stands with respect to literals;
* `Literal.next`  where it stands after one more character;
* `Literal.after` where it stands after a text.
-/

namespace CodeChart

inductive Literal where
  | outside
  | within (quote : Char)
  | escaped (quote : Char)
  deriving DecidableEq, Repr

def isQuote (c : Char) : Bool := c == '"' || c == '\''

def Literal.next : Literal → Char → Literal
  | .outside, c => if isQuote c then .within c else .outside
  | .within q, c => if c = '\\' then .escaped q else if c = q then .outside else .within q
  | .escaped q, _ => .within q

def Literal.after (l : Literal) (t : Text) : Literal := t.foldl Literal.next l

theorem Literal.after_cons (l : Literal) (c : Char) (t : Text) :
    l.after (c :: t) = (l.next c).after t := rfl
theorem Literal.after_append (l : Literal) (a b : Text) :
    l.after (a ++ b) = (l.after a).after b := List.foldl_append

/-- a text without quotes and backslashes does not leave the literal it stands in -/
theorem Literal.within_after {q : Char} {t : Text} (h : ∀ c ∈ t, c ≠ '\\' ∧ c ≠ q) :
    (Literal.within q).after t = .within q := by
  induction t with
  | nil => rfl
  | cons c t ih =>
    have hc := h c List.mem_cons_self
    rw [Literal.after_cons, Literal.next, if_neg hc.1, if_neg hc.2]
    exact ih fun d hd => h d (List.mem_cons_of_mem c hd)

end CodeChart
