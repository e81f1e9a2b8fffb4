import CodeChart.Source.Literal

/-!
# The closing parenthesis

* `searchClosing?`   the search for the parenthesis that brings the depth to zero, position by
                     position, with a jump over what a backslash takes with it in a literal;
* `closingParen?`    the position of that parenthesis, for a text read from a given position on;
* `closingParenFromEnd?`  the same for a text read from a position before its end, and then once
                     more from its beginning.

Parentheses in literals do not count.  The depth may fall below zero when reading starts inside
a group; only a parenthesis that reaches exactly zero is an answer.
-/

namespace CodeChart

/-- `index` is the position of the text that is left, and `quote` the one that opened the literal
in which the search stands -/
def searchClosing? (quote : Option Char) (depth : Int) (index : Nat) : Text → Option Nat
  | [] => none
  | c :: rest =>
    match quote with
    | some q =>
      if c = '\\' then
        match rest with
        | [] => none
        | _ :: behind => searchClosing? (some q) depth (index + 2) behind
      else if c = q then searchClosing? none depth (index + 1) rest
      else searchClosing? (some q) depth (index + 1) rest
    | none =>
      if isQuote c then searchClosing? (some c) depth (index + 1) rest
      else if c = '(' then searchClosing? none (depth + 1) (index + 1) rest
      else if c = ')' then
        if depth - 1 = 0 then some index else searchClosing? none (depth - 1) (index + 1) rest
      else searchClosing? none depth (index + 1) rest

/-- the position of the parenthesis that closes the first one from `start` on -/
def closingParen? (t : Text) (start : Nat) : Option Nat :=
  searchClosing? none 0 start (t.drop start)

/-- reading starts `back` characters before the end; positions before the beginning, which it then
goes on from, are negative -/
def closingParenFromEnd? (t : Text) (back : Nat) : Option Int :=
  (searchClosing? none 0 0 (t.drop (t.length - back) ++ t)).map fun i => (i : Int) - back

theorem searchClosing?_lt {quote : Option Char} {depth : Int} {index i : Nat} {t : Text}
    (h : searchClosing? quote depth index t = some i) : index ≤ i ∧ i < index + t.length := by
  fun_induction searchClosing? quote depth index t <;> grind

theorem closingParen?_lt {t : Text} {start i : Nat} (h : closingParen? t start = some i) :
    start ≤ i ∧ i < t.length := by
  have hbounds := searchClosing?_lt h
  rw [List.length_drop] at hbounds
  omega

end CodeChart
