import CodeChart.Proofs.Program.Line

/-!
# Plain programs

A program of calls and blocks, with the alternatives and exception handlers among them.

* `Header`, `Fork`     what opens a block, and what opens two blocks that belong together;
* `Program`            calls, blocks and forks, one statement a line;
* `Program.kinds`, `Program.forks`   the kinds of the nodes, and which of them are a fork;
* `Program.IsApart`    no fork stands directly in a block of the kind that it opens with;
* `Program.statements_source`   the statements of a program are its lines.
-/

namespace CodeChart

/-! ## programs -/

/-- what a block without an alternative starts with -/
inductive Header where
  | branch (c : Group)
  | loop (c : Group)
  | function (f : Callee) (x : Group)

def Header.text : Header → Text
  | .branch c => grouped "if ".toList c [' ', '{']
  | .loop c => grouped "while ".toList c [' ', '{']
  | .function f x => grouped f.text x [' ', '{']

def Header.kind : Header → Kind
  | .branch _ => .conditional
  | .loop _ => .loop
  | .function _ _ => .plain

/-- two blocks: a branch and its alternative, or a guarded block and its handler -/
inductive Fork where
  | branch (c : Group)
  | guarded (e : Group)

def Fork.firstText : Fork → Text
  | .branch c => grouped "if ".toList c [' ', '{']
  | .guarded _ => "try \x7b".toList

def Fork.secondText : Fork → Text
  | .branch _ => "else \x7b".toList
  | .guarded e => grouped "catch ".toList e [' ', '{']

def Fork.first : Fork → Kind
  | .branch _ => .conditional
  | .guarded _ => .tryBlock

def Fork.second : Fork → Kind
  | .branch _ => .alternative
  | .guarded _ => .handler

inductive Program where
  | done
  | call (f : Callee) (x : Group) (rest : Program)
  | block (h : Header) (body rest : Program)
  | fork (k : Fork) (body other rest : Program)

/-- a header, the lines of its block and the closing brace -/
def braced (header : Text) (body : List Text) : List Text := header :: (body ++ [['}']])

def Program.lines : Program → List Text
  | .done => []
  | .call f x rest => grouped f.text x [';'] :: rest.lines
  | .block h body rest => braced h.text body.lines ++ rest.lines
  | .fork k body other rest =>
    braced k.firstText body.lines ++ (braced k.secondText other.lines ++ rest.lines)

def Program.source (p : Program) : Text := List.intercalate ['\n'] p.lines

/-- the kinds of the nodes in the order of their creation -/
def Program.kinds : Program → List Kind
  | .done => []
  | .call _ _ rest => .plain :: rest.kinds
  | .block h body rest => (h.kind :: body.kinds) ++ rest.kinds
  | .fork k body other rest =>
    (k.first :: body.kinds) ++ ((k.second :: other.kinds) ++ rest.kinds)

/-- the two nodes of every fork, if the nodes are numbered from `n` on -/
def Program.forks (n : Nat) : Program → List (Nat × Nat)
  | .done => []
  | .call _ _ rest => rest.forks (n + 1)
  | .block _ body rest => body.forks (n + 1) ++ rest.forks (n + (body.kinds.length + 1))
  | .fork _ body other rest =>
    let second := n + (body.kinds.length + 1)
    (n, second) :: (body.forks (n + 1) ++ (other.forks (second + 1)
      ++ rest.forks (second + (other.kinds.length + 1))))

/-- no fork stands directly in a block of the kind that it opens with; the block around the
program is of kind `around` -/
def Program.IsApart (around : Option Kind) : Program → Prop
  | .done => True
  | .call _ _ rest => rest.IsApart around
  | .block h body rest => body.IsApart (some h.kind) ∧ rest.IsApart around
  | .fork k body other rest => around ≠ some k.first ∧ body.IsApart (some k.first) ∧
      other.IsApart (some k.second) ∧ rest.IsApart around

/-! ## lines -/

theorem Header.isLine (h : Header) : IsLine h.text h.kind .nest := by
  cases h with
  | branch c => exact isLine_if c
  | loop c => exact isLine_while c
  | function f x => exact isLine_function f x

theorem Header.leaves_eq (h : Header) : h.kind.leaves = none := by
  cases h <;> rfl

theorem Header.kind_ne_caseLabel (h : Header) : h.kind ≠ .caseLabel := by
  cases h <;> exact Kind.noConfusion

theorem Fork.isLine_first (k : Fork) : IsLine k.firstText k.first .nest := by
  cases k with
  | branch c => exact isLine_if c
  | guarded e => exact isLine_try

theorem Fork.isLine_second (k : Fork) : IsLine k.secondText k.second .nest := by
  cases k with
  | branch c => exact isLine_else
  | guarded e => exact isLine_catch e

theorem Fork.leaves_first (k : Fork) : k.first.leaves = none := by
  cases k <;> rfl

theorem Fork.leaves_second (k : Fork) : k.second.leaves = some k.first := by
  cases k <;> rfl

theorem Fork.first_ne_caseLabel (k : Fork) : k.first ≠ .caseLabel := by
  cases k <;> exact Kind.noConfusion

theorem Fork.second_ne_caseLabel (k : Fork) : k.second ≠ .caseLabel := by
  cases k <;> exact Kind.noConfusion

theorem isWholeLine_braced {t : Text} {body : List Text} (ht : IsWholeLine t)
    (hbody : ∀ l ∈ body, IsWholeLine l) : ∀ l ∈ braced t body, IsWholeLine l := by
  intro l hl
  rcases List.mem_cons.1 hl with rfl | hl
  · exact ht
  · rcases List.mem_append.1 hl with hl | hl
    · exact hbody l hl
    · rw [List.mem_singleton.1 hl]
      exact isWholeLine_close

theorem Program.isWholeLine (p : Program) : ∀ l ∈ p.lines, IsWholeLine l := by
  induction p with
  | done =>
    intro l hl
    cases hl
  | call f x rest ih =>
    intro l hl
    rcases List.mem_cons.1 hl with rfl | hl
    · exact (isLine_call f x).whole
    · exact ih l hl
  | block h body rest ihb ihr =>
    intro l hl
    rcases List.mem_append.1 hl with hl | hl
    · exact isWholeLine_braced h.isLine.whole ihb l hl
    · exact ihr l hl
  | fork k body other rest ihb iho ihr =>
    intro l hl
    rcases List.mem_append.1 hl with hl | hl
    · exact isWholeLine_braced k.isLine_first.whole ihb l hl
    · rcases List.mem_append.1 hl with hl | hl
      · exact isWholeLine_braced k.isLine_second.whole iho l hl
      · exact ihr l hl

theorem Program.statements_source (p : Program) : statements p.source = numbered 1 p.lines :=
  statements_of_lines p.isWholeLine

/-! ## forks -/

/-- nodes of two kinds that belong together, by their numbers -/
def IsForkAt (kinds : List Kind) (i j : Nat) : Prop :=
  ∃ first second, kinds[i]? = some first ∧ kinds[j]? = some second ∧ second.leaves = some first

theorem IsForkAt.append {kinds : List Kind} {i j : Nat} (h : IsForkAt kinds i j)
    (more : List Kind) : IsForkAt (kinds ++ more) i j := by
  obtain ⟨first, second, hi, hj, hk⟩ := h
  refine ⟨first, second, ?_, ?_, hk⟩
  · rw [List.getElem?_append_left (List.getElem?_eq_some_iff.1 hi).1, hi]
  · rw [List.getElem?_append_left (List.getElem?_eq_some_iff.1 hj).1, hj]

/-- the numbers that `forks` gives are those of forks; the nodes of `before` come first -/
theorem Program.isForkAt (p : Program) {n : Nat} (before : List Kind) (hn : before.length = n) :
    ∀ ij ∈ p.forks n, IsForkAt (before ++ p.kinds) ij.1 ij.2 := by
  induction p generalizing n before with
  | done =>
    intro ij hij
    cases hij
  | call f x rest ih =>
    intro ij hij
    have hrest := ih (before ++ [.plain]) (by simp [hn]) ij hij
    rwa [List.append_assoc] at hrest
  | block h body rest ihb ihr =>
    intro ij hij
    rcases List.mem_append.1 hij with hij | hij
    · have hbody := ihb (before ++ [h.kind]) (by simp [hn]) ij hij
      have := hbody.append rest.kinds
      simpa [Program.kinds] using this
    · have hrest := ihr (before ++ (h.kind :: body.kinds)) (by simp [hn]) ij hij
      rwa [List.append_assoc] at hrest
  | fork k body other rest ihb iho ihr =>
    intro ij hij
    rcases List.mem_cons.1 hij with rfl | hij
    · refine ⟨k.first, k.second, ?_, ?_, k.leaves_second⟩
      · simp [Program.kinds, ← hn]
      · have hlen : (before ++ (k.first :: body.kinds)).length = n + (body.kinds.length + 1) := by
          simp [hn]
        rw [Program.kinds, ← List.append_assoc, ← hlen, List.getElem?_append_right (Nat.le_refl _)]
        simp
    · rcases List.mem_append.1 hij with hij | hij
      · have hbody := ihb (before ++ [k.first]) (by simp [hn]) ij hij
        have := hbody.append ((k.second :: other.kinds) ++ rest.kinds)
        simpa [Program.kinds] using this
      · rcases List.mem_append.1 hij with hij | hij
        · have hother := iho (before ++ (k.first :: body.kinds) ++ [k.second])
            (by simp [hn]; omega) ij hij
          have := hother.append rest.kinds
          simpa [Program.kinds] using this
        · have hrest := ihr
            (before ++ (k.first :: body.kinds) ++ (k.second :: other.kinds))
            (by simp [hn]; omega) ij hij
          simpa [Program.kinds] using hrest

/-- where something stands in a list that starts with a header and its block -/
theorem getElem?_enclosed {α : Type} {a x : α} {body rest : List α} {j : Nat}
    (h : ((a :: body) ++ rest)[j]? = some x) :
    (j = 0 ∧ x = a) ∨ (∃ i, j = i + 1 ∧ body[i]? = some x) ∨
      ∃ i, j = body.length + 1 + i ∧ rest[i]? = some x := by
  cases j with
  | zero => exact .inl ⟨rfl, (Option.some.inj h).symm⟩
  | succ i =>
    rw [List.cons_append, List.getElem?_cons_succ, List.getElem?_append] at h
    split at h
    · exact .inr (.inl ⟨i, rfl, h⟩)
    · exact .inr (.inr ⟨i - body.length, by omega, h⟩)

/-- every alternative and every handler is the second node of a fork -/
theorem Program.exists_fork (p : Program) {j : Nat} {k : Kind} (hj : p.kinds[j]? = some k)
    (hk : k.leaves ≠ none) (n : Nat) : ∃ i, (i, n + j) ∈ p.forks n := by
  induction p generalizing n j with
  | done => cases hj
  | call f x rest ih =>
    cases j with
    | zero =>
      cases hj
      exact absurd rfl hk
    | succ j =>
      obtain ⟨i, hi⟩ := ih hj (n + 1)
      exact ⟨i, by rwa [Nat.add_right_comm] at hi⟩
  | block h body rest ihb ihr =>
    rcases getElem?_enclosed hj with ⟨_, rfl⟩ | ⟨i, rfl, hi⟩ | ⟨i, rfl, hi⟩
    · exact absurd h.leaves_eq hk
    · obtain ⟨i', hi'⟩ := ihb hi (n + 1)
      refine ⟨i', List.mem_append_left _ ?_⟩
      rwa [Nat.add_right_comm] at hi'
    · obtain ⟨i', hi'⟩ := ihr hi (n + (body.kinds.length + 1))
      refine ⟨i', List.mem_append_right _ ?_⟩
      rwa [Nat.add_assoc] at hi'
  | fork f body other rest ihb iho ihr =>
    rcases getElem?_enclosed hj with ⟨_, rfl⟩ | ⟨i, rfl, hi⟩ | ⟨i, rfl, hi⟩
    · exact absurd f.leaves_first hk
    · obtain ⟨i', hi'⟩ := ihb hi (n + 1)
      refine ⟨i', List.mem_cons_of_mem _ (List.mem_append_left _ ?_)⟩
      rwa [Nat.add_right_comm] at hi'
    · rw [← Nat.add_assoc]
      rcases getElem?_enclosed hi with ⟨rfl, rfl⟩ | ⟨m, rfl, hm⟩ | ⟨m, rfl, hm⟩
      · exact ⟨n, List.mem_cons_self⟩
      · obtain ⟨i', hi'⟩ := iho hm (n + (body.kinds.length + 1) + 1)
        refine ⟨i', List.mem_cons_of_mem _ (List.mem_append_right _ (List.mem_append_left _ ?_))⟩
        rw [← Nat.add_assoc _ m 1, Nat.add_right_comm _ m 1]
        exact hi'
      · obtain ⟨i', hi'⟩ := ihr hm (n + (body.kinds.length + 1) + (other.kinds.length + 1))
        refine ⟨i', List.mem_cons_of_mem _ (List.mem_append_right _ (List.mem_append_right _ ?_))⟩
        rw [← Nat.add_assoc _ (other.kinds.length + 1) m]
        exact hi'

end CodeChart
