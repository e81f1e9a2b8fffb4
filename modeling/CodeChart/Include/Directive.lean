import CodeChart.Text.Basic

/-!
# Include directives

A directive names a file between a double quote or an opening angle bracket and the next double
quote or closing angle bracket, whichever of the two comes first; the two need not match.

* `directiveAt?`     the name of a directive at the start of a text, and what follows it;
* `includedNames`    the names of all directives of a text, in order and without their blanks.
-/

namespace CodeChart

def opensName (c : Char) : Bool := c == '"' || c == '<'

def closesName (c : Char) : Bool := c == '"' || c == '>'

/-- the name between its delimiters is not empty -/
def directiveAt? (t : Text) : Option (Text × Text) :=
  let word := "#include".toList
  if word.isPrefixOf t then
    match trimLeft (t.drop word.length) with
    | [] => none
    | c :: rest =>
      let name := rest.takeWhile fun d => !closesName d
      match rest.dropWhile fun d => !closesName d with
      | [] => none
      | _ :: after => if opensName c && !name.isEmpty then some (name, after) else none
  else none

theorem length_directiveAt?_lt {t name after : Text} (h : directiveAt? t = some (name, after)) :
    after.length < t.length := by
  simp only [directiveAt?] at h
  split at h
  · split at h
    · simp at h
    · rename_i c rest hr
      split at h
      · simp at h
      · rename_i d tail hd
        split at h
        · simp only [Option.some.injEq, Prod.mk.injEq] at h
          obtain ⟨_, rfl⟩ := h
          have h1 := (List.dropWhile_sublist (l := rest) fun d => !closesName d).length_le
          have h2 := length_trimLeft_le (t.drop "#include".toList.length)
          rw [hd] at h1
          rw [hr] at h2
          simp only [List.length_cons, List.length_drop] at h1 h2
          omega
        · simp at h
  · simp at h

/-- reading goes on behind a directive -/
def directives (t : Text) : List Text :=
  match _h : directiveAt? t with
  | some (name, after) => name :: directives after
  | none =>
    match t with
    | [] => []
    | _ :: rest => directives rest
termination_by t.length
decreasing_by
  · exact length_directiveAt?_lt _h
  · simp

def includedNames (t : Text) : List Text := (directives t).map trim

end CodeChart
