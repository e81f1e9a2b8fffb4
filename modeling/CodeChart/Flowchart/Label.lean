import CodeChart.Text.Basic

/-!
# Labels

A label stands between double quotes in a chart and is shown to a reader, so it must not hold
characters that end it and should be short.

* `sanitize`     a label that is safe to embed: no double quotes, square or curly brackets, the
                 markup characters as entities, at most `maxLabelLength` visible characters;
* `condition`    the parenthesised expression after a keyword.
-/

namespace CodeChart

/-! ## entities -/

/-- undoes `encodeEntities`; any other text after an ampersand is left alone -/
def decodeEntities : Text → Text
  | '&' :: 'a' :: 'm' :: 'p' :: ';' :: rest => '&' :: decodeEntities rest
  | '&' :: 'l' :: 't' :: ';' :: rest => '<' :: decodeEntities rest
  | '&' :: 'g' :: 't' :: ';' :: rest => '>' :: decodeEntities rest
  | c :: rest => c :: decodeEntities rest
  | [] => []

def entity (c : Char) : Text :=
  if c = '&' then "&amp;".toList
  else if c = '<' then "&lt;".toList
  else if c = '>' then "&gt;".toList
  else [c]

def encodeEntities (t : Text) : Text := t.flatMap entity

theorem encodeEntities_cons (c : Char) (t : Text) :
    encodeEntities (c :: t) = entity c ++ encodeEntities t := rfl
theorem encodeEntities_append (a b : Text) :
    encodeEntities (a ++ b) = encodeEntities a ++ encodeEntities b := List.flatMap_append

theorem decodeEntities_encodeEntities (t : Text) : decodeEntities (encodeEntities t) = t := by
  induction t with
  | nil => rfl
  | cons c t ih =>
    rw [encodeEntities_cons, entity]
    split
    · rename_i h
      subst h
      exact congrArg _ ih
    · split
      · rename_i h
        subst h
        exact congrArg _ ih
      · split
        · rename_i h
          subst h
          exact congrArg _ ih
        · rename_i h _ _
          rw [List.singleton_append, decodeEntities.eq_4, ih]
          all_goals exact fun _ hc _ => h hc

/-! ## sanitizing -/

def maxLabelLength : Nat := 50

def ellipsis : Text := "...".toList

/-- a character that cannot end a label: quotes become single, brackets blank -/
def plainChar (c : Char) : Char :=
  if c = '"' then '\''
  else if c = '[' ∨ c = ']' ∨ c = '{' ∨ c = '}' then ' '
  else c

def shorten (t : Text) : Text :=
  if t.length > maxLabelLength then t.take (maxLabelLength - ellipsis.length) ++ ellipsis else t

/-- entities are decoded first, so the length is counted on what a reader sees -/
def sanitize (t : Text) : Text := encodeEntities (shorten ((decodeEntities t).map plainChar))

theorem length_shorten_le (t : Text) : (shorten t).length ≤ maxLabelLength := by
  unfold shorten
  split
  · have : ellipsis.length = 3 := rfl
    simp only [List.length_append, List.length_take, this, maxLabelLength]
    omega
  · omega

/-! ## conditions -/

/-- the text before the last closing parenthesis of its first line -/
def beforeLastParen? (t : Text) : Option Text :=
  let line := t.takeWhile (· ≠ '\n')
  match line.reverse.dropWhile (· ≠ ')') with
  | [] => none
  | _ :: inner => some inner.reverse

/-- what stands in parentheses after `keyword`, if the text starts with both -/
def groupAt? (keyword t : Text) : Option Text :=
  if keyword.isPrefixOf t then
    match trimLeft (t.drop keyword.length) with
    | '(' :: rest => beforeLastParen? rest
    | _ => none
  else none

def group? (keyword : Text) : Text → Option Text
  | [] => groupAt? keyword []
  | c :: rest =>
    match groupAt? keyword (c :: rest) with
    | some inner => some inner
    | none => group? keyword rest

def dropStrayParen (t : Text) : Text :=
  if t.getLast? = some ')' ∧ t.count ')' > t.count '(' then t.dropLast else t

/-- without a group, the text less the keyword and all parentheses -/
def withoutGroup (keyword t : Text) : Text :=
  trim ((eraseFirst keyword t).filter fun c => c ≠ '(' ∧ c ≠ ')')

def condition (keyword t : Text) : Text :=
  match group? keyword t with
  | none | some [] => withoutGroup keyword t
  | some inner => trim (dropStrayParen inner)

end CodeChart
