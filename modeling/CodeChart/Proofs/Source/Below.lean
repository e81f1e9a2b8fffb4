import CodeChart.Proofs.Source.LineComment

/-!
# One text below another

A text that leaves no comment open is read to its end before the line below it begins.  So of two
such texts each is read as if the other were not there; the lower one has its lines further down.

* `Located.below`, `Strip.below`, `LogicalLine.below`, `Statement.below`   the same, some lines
                         further down;
* `dropComments_map`     comments are found in the characters, wherever they stand;
* `logicalLines_append`, `statements_append`   the lines and the statements of two texts, one below
                         the other.
-/

namespace CodeChart

/-! ## further down -/

def Located.below (n : Nat) (a : Located) : Located := { a with line := a.line + n }

def Strip.below (n : Nat) (s : Strip) : Strip := ⟨s.opened + n, s.chars.map (Located.below n)⟩

def LogicalLine.below (n : Nat) (l : LogicalLine) : LogicalLine := { l with line := l.line + n }

def Statement.below (n : Nat) (s : Statement) : Statement := { s with line := s.line + n }

theorem locate_below (k n : Nat) (t : Text) :
    locate (k + n) t = (locate k t).map (Located.below n) := by
  induction t generalizing k with
  | nil => rfl
  | cons c t ih =>
    have hnext : nextLine (k + n) c = nextLine k c + n := by
      unfold nextLine
      split <;> omega
    rw [locate, hnext, ih, locate, List.map_cons]
    rfl

theorem Strip.line_below (n : Nat) (s : Strip) : (s.below n).line = s.line + n := by
  have hfind : (s.below n).chars.find? (fun a => !isBlank a.char)
      = (s.chars.find? fun a => !isBlank a.char).map (Located.below n) := List.find?_map
  rw [Strip.line, Strip.line, hfind]
  cases s.chars.find? fun a => !isBlank a.char with
  | none => rfl
  | some a => rfl

theorem Strip.logicalLine_below (n : Nat) (s : Strip) :
    (s.below n).logicalLine = s.logicalLine.below n := by
  have htext : (s.below n).text = s.text := List.map_map
  rw [Strip.logicalLine, s.line_below, htext]
  rfl

theorem LogicalLine.statements_below (n : Nat) (l : LogicalLine) :
    (l.below n).statements = l.statements.map (Statement.below n) := by
  rw [LogicalLine.statements, LogicalLine.statements, List.map_map]
  rfl

theorem strips_below (k n : Nat) (t : List Located) :
    strips (k + n) (t.map (Located.below n)) = (strips k t).map (Strip.below n) := by
  induction t generalizing k with
  | nil => rfl
  | cons a t ih =>
    have hchar : (a.below n).char = a.char := rfl
    rw [List.map_cons, strips, strips, hchar]
    by_cases ha : a.char = '\n'
    · have hline : (a.below n).line + 1 = a.line + 1 + n := by
        show a.line + n + 1 = _
        omega
      rw [if_pos ha, if_pos ha, hline, ih, List.map_cons]
      rfl
    · rw [if_neg ha, if_neg ha, ih]
      cases strips k t with
      | nil => rfl
      | cons s more => rfl

/-! ## two texts -/

theorem dropComments_map {f : Located → Located} (hf : ∀ a, (f a).char = a.char)
    (t : List Located) : dropComments (t.map f) = (dropComments t).map f :=
  ((uncommented_dropComments t).map hf).dropComments_eq

section
variable {a : Text} (ha : ClosesComments a) (b : Text)
include ha

theorem dropComments_below (n : Nat) :
    dropComments (locate n (a ++ '\n' :: b)) = dropComments (locate n a) ++
      ⟨'\n', n + newlines a⟩ :: dropComments (locate (n + newlines a + 1) b) := by
  rw [locate_line, dropComments_append, dropComments_line rfl]
  · rwa [map_char_locate]
  · intro _ hstar
    have hline : '\n' = '*' := Option.some.inj hstar
    exact absurd hline (by decide)

theorem logicalLines_append : logicalLines (a ++ '\n' :: b)
    = logicalLines a ++ (logicalLines b).map (LogicalLine.below (1 + newlines a)) := by
  have hstart : 1 + newlines a + 1 = 1 + (1 + newlines a) := Nat.add_comm _ _
  have hchar : ∀ c : Located, (c.below (1 + newlines a)).char = c.char := fun _ => rfl
  have hlower : strips (1 + newlines a + 1) (dropComments (locate (1 + newlines a + 1) b))
      = (strips 1 (dropComments (locate 1 b))).map (Strip.below (1 + newlines a)) := by
    rw [hstart, locate_below, dropComments_map hchar, strips_below]
  rw [logicalLines_eq, dropComments_below ha, strips_append_line 1 _ rfl, hlower, List.map_append,
    logicalLines_eq, logicalLines_eq, List.map_map, List.map_map]
  exact congrArg (_ ++ ·) (List.map_congr_left fun s _ => s.logicalLine_below _)

theorem statements_append : statements (a ++ '\n' :: b)
    = statements a ++ (statements b).map (Statement.below (1 + newlines a)) := by
  rw [statements, logicalLines_append ha, List.flatMap_append, statements, statements,
    List.flatMap_map, List.map_flatMap]
  exact congrArg (_ ++ ·) (List.flatMap_congr fun l _ => l.statements_below _)

end

end CodeChart
