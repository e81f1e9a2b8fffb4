import CodeChart.Text.Basic

/-!
# Control sequences

A terminal takes an escape character and an opening bracket as the start of a command: some
parameters follow, then some intermediate characters, and one final character ends it.

* `afterControl?`   what follows a control sequence at the start of a text;
* `dropControls`    a text without its control sequences.
-/

namespace CodeChart

def escapeChar : Char := '\x1b'

/-- digits, and the punctuation up to the question mark -/
def isParameter (c : Char) : Bool := 0x30 ≤ c.toNat && c.toNat ≤ 0x3F

/-- the space, and the punctuation up to the slash -/
def isIntermediate (c : Char) : Bool := 0x20 ≤ c.toNat && c.toNat ≤ 0x2F

/-- letters, and the punctuation around them -/
def isFinal (c : Char) : Bool := 0x40 ≤ c.toNat && c.toNat ≤ 0x7E

/-- the classes are disjoint, so a sequence ends in one place only -/
def afterControl? (t : Text) : Option Text :=
  match t with
  | e :: '[' :: rest =>
    match (rest.dropWhile isParameter).dropWhile isIntermediate with
    | [] => none
    | c :: after => if e = escapeChar ∧ isFinal c then some after else none
  | _ => none

theorem length_afterControl?_lt {t after : Text} (h : afterControl? t = some after) :
    after.length < t.length := by
  unfold afterControl? at h
  split at h
  · rename_i e rest
    split at h
    · simp at h
    · rename_i c tail hc
      split at h
      · simp only [Option.some.injEq] at h
        subst h
        have h1 := (List.dropWhile_sublist (l := rest) isParameter).length_le
        have h2 := (List.dropWhile_sublist (l := rest.dropWhile isParameter)
          isIntermediate).length_le
        rw [hc] at h2
        simp only [List.length_cons] at h2 ⊢
        omega
      · simp at h
  · simp at h

def dropControls : Text → Text
  | [] => []
  | c :: rest =>
    match _h : afterControl? (c :: rest) with
    | some after => dropControls after
    | none => c :: dropControls rest
termination_by t => t.length
decreasing_by
  · exact length_afterControl?_lt _h
  · simp

end CodeChart
