import CodeChart.Source.Parenthesis
import CodeChart.Text.Word

/-!
# Control headers without braces

`if (x) a();` is two statements, the header `if (x)` and the body `a();`, and so is
`else b();`.  A header that is followed by an opening brace or a semicolon stays whole.

* `elseBody?`       the body of a bare `else`;
* `conditionBody?`  a header with a condition, and its body;
* `peelHeaders`     all headers in front of a body, one after the other, and the body.
-/

namespace CodeChart

/-! ## a bare else -/

/-- what follows `else` and at least one blank -/
def afterElse? (t : Text) : Option Text :=
  let word := "else".toList
  if word.isPrefixOf t && (t.drop word.length).head?.any isBlank then
    some (trimLeft (t.drop word.length))
  else none

/-- the text without its final line end, if it has no other -/
def singleLine? (t : Text) : Option Text :=
  match t.dropWhile (· ≠ '\n') with
  | [] => some t
  | ['\n'] => some (t.takeWhile (· ≠ '\n'))
  | _ => none

/-- the body of an `else` that opens no block and no `if` -/
def elseBody? (t : Text) : Option Text :=
  match afterElse? t with
  | none => none
  | some body =>
    if body.isEmpty || body.head? = some '{' || startsWithWord "if".toList body then none
    else singleLine? body

theorem length_afterElse?_lt {t body : Text} (h : afterElse? t = some body) :
    body.length < t.length := by
  simp only [afterElse?] at h
  split at h
  · rename_i hp
    simp only [Bool.and_eq_true, List.isPrefixOf_iff_prefix] at hp
    obtain ⟨⟨u, rfl⟩, _⟩ := hp
    simp only [List.drop_left, Option.some.injEq] at h
    subst h
    have := length_trimLeft_le u
    simp only [List.length_append]
    have : "else".toList.length = 4 := rfl
    omega
  · simp at h

theorem length_singleLine?_le {t s : Text} (h : singleLine? t = some s) :
    s.length ≤ t.length := by
  simp only [singleLine?] at h
  split at h
  · simp only [Option.some.injEq] at h
    subst h
    exact Nat.le_refl _
  · simp only [Option.some.injEq] at h
    subst h
    exact (List.takeWhile_sublist _).length_le
  · simp at h

theorem length_elseBody?_lt {t body : Text} (h : elseBody? t = some body) :
    body.length < t.length := by
  simp only [elseBody?] at h
  split at h
  · simp at h
  · rename_i u hu
    split at h
    · simp at h
    · exact Nat.lt_of_le_of_lt (length_singleLine?_le h) (length_afterElse?_lt hu)

/-! ## a header with a condition -/

/-- the words that a parenthesised condition follows -/
def conditionWords : List Text :=
  ["if".toList, "while".toList, "for".toList, "switch".toList, "catch".toList]

/-- `word` stands at the start, and after it and some blanks an opening parenthesis -/
def opensGroup (t word : Text) : Bool :=
  word.isPrefixOf t && nextVisible (t.drop word.length) == some '('

/-- the text starts with a control header, an `else` before it allowed -/
def opensCondition (t : Text) : Bool :=
  conditionWords.any (opensGroup ((afterElse? t).getD t))

/-- the header up to the parenthesis that closes its condition, and the body after it -/
def conditionBody? (t : Text) : Option (Text × Text) :=
  if opensCondition t then
    match closingParen? t (t.idxOf '(') with
    | none => none
    | some i =>
      let body := trim (t.drop (i + 1))
      if body.isEmpty || body.head? = some '{' || body.head? = some ';' then none
      else some (t.take (i + 1), body)
  else none

theorem length_conditionBody?_lt {t header body : Text}
    (h : conditionBody? t = some (header, body)) : body.length < t.length := by
  simp only [conditionBody?] at h
  split at h
  · split at h
    · simp at h
    · rename_i i hi
      split at h
      · simp at h
      · simp only [Option.some.injEq, Prod.mk.injEq] at h
        obtain ⟨_, rfl⟩ := h
        have h1 := length_trim_le (t.drop (i + 1))
        have h2 := (closingParen?_lt hi).2
        simp only [List.length_drop] at h1
        omega
  · simp at h

/-! ## all headers of a statement -/

def peelHeaders (t : Text) : List Text :=
  match _h : elseBody? t with
  | some body => "else".toList :: peelHeaders body
  | none =>
    match _h : conditionBody? t with
    | some (header, body) => header :: peelHeaders body
    | none => [t]
termination_by t.length
decreasing_by
  · exact length_elseBody?_lt _h
  · exact length_conditionBody?_lt _h

theorem peelHeaders_of_else {t body : Text} (h : elseBody? t = some body) :
    peelHeaders t = "else".toList :: peelHeaders body := by
  rw [peelHeaders]
  split
  · rename_i b hb
    rw [h] at hb
    simp only [Option.some.injEq] at hb
    rw [hb]
  · rename_i hn
    rw [h] at hn
    simp at hn

theorem peelHeaders_of_condition {t header body : Text} (he : elseBody? t = none)
    (h : conditionBody? t = some (header, body)) :
    peelHeaders t = header :: peelHeaders body := by
  rw [peelHeaders]
  split
  · rename_i b hb
    rw [he] at hb
    simp at hb
  · split
    · rename_i b hb
      rw [h] at hb
      simp only [Option.some.injEq, Prod.mk.injEq] at hb
      rw [hb.1, hb.2]
    · rename_i hn
      rw [h] at hn
      simp at hn

theorem peelHeaders_of_none {t : Text} (he : elseBody? t = none) (h : conditionBody? t = none) :
    peelHeaders t = [t] := by
  rw [peelHeaders]
  split
  · rename_i b hb
    rw [he] at hb
    simp at hb
  · split
    · rename_i b hb
      rw [h] at hb
      simp at hb
    · rfl

end CodeChart
