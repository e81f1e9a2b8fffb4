import CodeChart.Proofs.Text.Split
import CodeChart.Source.Comment

/-!
# Characters with their lines

Another way to logical lines: every character carries the line it was written on, characters in
block comments are left out, what remains is cut at its line ends, and a row is numbered by its
first visible character.

* `locate`          the characters of a text with the lines they stand on;
* `dropComments`    the characters outside block comments; a comment that is never closed is
                    ordinary text;
* `strips`          the rows of what remains, `Strip.logicalLine` with their numbers;
* `strips_text`     without the lines, these are the pieces between the line ends.
-/

namespace CodeChart

/-! ## characters with their lines -/

structure Located where
  char : Char
  line : Nat
  deriving DecidableEq, Repr

def nextLine (n : Nat) (c : Char) : Nat := if c = '\n' then n + 1 else n

/-- lines are counted from `n` on -/
def locate (n : Nat) : Text → List Located
  | [] => []
  | c :: rest => ⟨c, n⟩ :: locate (nextLine n c) rest

theorem newlines_append (a b : Text) : newlines (a ++ b) = newlines a + newlines b :=
  List.count_append

theorem map_char_locate (n : Nat) (t : Text) : (locate n t).map Located.char = t := by
  induction t generalizing n with
  | nil => rfl
  | cons c t ih => simp [locate, ih]

theorem locate_append (n : Nat) (a b : Text) :
    locate n (a ++ b) = locate n a ++ locate (n + newlines a) b := by
  induction a generalizing n with
  | nil => simp [locate, newlines]
  | cons c a ih =>
    simp only [List.cons_append, locate, ih, nextLine, newlines]
    by_cases h : c = '\n'
    · subst h
      simp [Nat.add_comm, Nat.add_left_comm]
    · simp [h]

/-! ## block comments -/

/-- where a character stands: in the code or in a block comment -/
inductive Region where
  | code
  | comment
  deriving DecidableEq, Repr

def closesComment : List Located → Bool
  | [] => false
  | a :: rest =>
    (a.char == '*' && (rest.head?.map Located.char) == some '/') || closesComment rest

/-- the characters outside block comments, for a text that starts in the given region -/
def outsideComments : Region → List Located → List Located
  | _, [] => []
  | .code, [a] => [a]
  | .comment, [_] => []
  | .code, a :: b :: rest =>
    if a.char = '/' ∧ b.char = '*' ∧ closesComment rest then outsideComments .comment rest
    else a :: outsideComments .code (b :: rest)
  | .comment, a :: b :: rest =>
    if a.char = '*' ∧ b.char = '/' then outsideComments .code rest
    else outsideComments .comment (b :: rest)

def dropComments (t : List Located) : List Located := outsideComments .code t

theorem outsideComments_sublist (r : Region) (t : List Located) :
    (outsideComments r t).Sublist t := by
  fun_induction outsideComments r t with
  | case1 => exact .slnil
  | case2 a => exact List.Sublist.refl [a]
  | case3 a => exact List.nil_sublist [a]
  | case4 a b rest _ ih => exact (ih.cons b).cons a
  | case5 a b rest _ ih => exact ih.cons_cons a
  | case6 a b rest _ ih => exact (ih.cons b).cons a
  | case7 a b rest _ ih => exact ih.cons a

/-! ## rows -/

/-- the characters of one logical line and the line on which it opens -/
structure Strip where
  opened : Nat
  chars : List Located
  deriving DecidableEq, Repr

/-- cuts at the line ends that are left -/
def strips (opened : Nat) : List Located → List Strip
  | [] => [⟨opened, []⟩]
  | a :: rest =>
    if a.char = '\n' then ⟨opened, []⟩ :: strips (a.line + 1) rest
    else match strips opened rest with
      | [] => [⟨opened, [a]⟩]
      | s :: more => ⟨s.opened, a :: s.chars⟩ :: more

def Strip.text (s : Strip) : Text := s.chars.map Located.char

/-- the line of the first visible character, or of the opening if there is none -/
def Strip.line (s : Strip) : Nat :=
  match s.chars.find? fun a => !isBlank a.char with
  | some a => a.line
  | none => s.opened

def Strip.logicalLine (s : Strip) : LogicalLine := ⟨s.line, s.text⟩

theorem strips_ne_nil (n : Nat) (t : List Located) : strips n t ≠ [] := by
  cases t with
  | nil => simp [strips]
  | cons a t =>
    simp only [strips]
    split
    · simp
    · split <;> simp

theorem strips_text (n : Nat) (t : List Located) :
    (strips n t).map Strip.text = splitOn '\n' (t.map Located.char) := by
  induction t generalizing n with
  | nil => rfl
  | cons a t ih =>
    by_cases h : a.char = '\n'
    · rw [List.map_cons, h, splitOn_cons_self, ← ih (a.line + 1)]
      simp [strips, h, Strip.text]
    · cases hs : strips n t with
      | nil => exact absurd hs (strips_ne_nil n t)
      | cons s more =>
        have ht := ih n
        rw [hs, List.map_cons] at ht
        rw [List.map_cons, splitOn_cons_of_ne h ht.symm]
        simp [strips, h, hs, Strip.text]

end CodeChart
