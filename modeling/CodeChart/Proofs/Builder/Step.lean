import CodeChart.Flowchart.Builder

/-!
# The steps of a builder

What one operation does to the state, said once.  Everything that is proved about runs is
derived from these equations and from the induction over calls, and nothing later unfolds an
operation.

* `Builder.draw_eq`, `Builder.settle_nest`, `settle_chain`, `settle_stay`   the two halves of
                        `add`: the chart and the scopes;
* `Builder.pop_cases`   a scope is left, or the bottom stays;
* `Builder.braces_cases`   what the braces of a statement do to the state;
* `Builder.Call`, `Builder.performAll`, `Builder.Reachable`   the calls a builder can get, in any
                        order, and the states they lead to;
* `Builder.performAll_induction`   what the four kinds of steps keep, every run keeps.
-/

namespace CodeChart

/-! ## the edge of a statement -/

theorem Kind.edgeStyle_eq (k : Kind) : k.edgeStyle = if k = .handler then .dashed else .solid := by
  cases k <;> rfl

theorem Kind.edgeTag_eq (k : Kind) (t : Text) :
    k.edgeTag t = if k = .caseLabel then some (k.label t) else none := by
  cases k <;> rfl

/-! ## adding a statement -/

theorem Builder.draw_eq (b : Builder) (k : Kind) (t : Text) (line : Int) :
    b.draw k t line = { b with
      nodes := b.nodes ++ [⟨b.nextId, k.label t, k.category t, some k, line⟩]
      edges := b.edges ++ [⟨b.sourceFor k, b.nextId, k.edgeStyle, k.edgeTag t⟩]
      counter := b.counter + 1
      lines := Assoc.set b.lines b.nextId line
      cases := b.casesWith k b.nextId } := rfl

theorem Builder.settle_nest (b : Builder) (k : Kind) (id : NodeId) :
    b.settle k .nest id = { b with
      top := ⟨id, some k⟩
      outer := b.top :: b.outer
      switches := if k = .switch then ⟨id, b.depth + 1⟩ :: b.switches else b.switches } := by
  by_cases h : k = .switch
  · simp [Builder.settle, Builder.place, Builder.enterSwitch, Builder.push, Builder.depth, h]
  · simp [Builder.settle, Builder.place, Builder.enterSwitch, Builder.push, h]

theorem Builder.settle_chain (b : Builder) (k : Kind) (id : NodeId) :
    b.settle k .chain id = b.replaceTop id := by
  simp [Builder.settle, Builder.place, Builder.enterSwitch]

theorem Builder.settle_stay (b : Builder) (k : Kind) (id : NodeId) :
    b.settle k .stay id = b := by
  simp [Builder.settle, Builder.place, Builder.enterSwitch]

/-- placing a node is a matter of the scopes alone -/
theorem Builder.settle_fields (b : Builder) (k : Kind) (p : Placement) (id : NodeId) :
    ∃ top outer switches,
      b.settle k p id = { b with top := top, outer := outer, switches := switches } := by
  cases p with
  | nest => exact ⟨_, _, _, b.settle_nest k id⟩
  | chain => exact ⟨_, _, _, b.settle_chain k id⟩
  | stay => exact ⟨_, _, _, b.settle_stay k id⟩

/-! ## leaving a scope -/

theorem Builder.pop_of_outer {b : Builder} {s : Scope} {rest : List Scope}
    (h : b.outer = s :: rest) :
    b.pop = { b with top := s, outer := rest, switches := b.switchesOutside } := by
  simp [Builder.pop, h]

theorem Builder.pop_of_depth {b : Builder} (h : b.depth = 1) : b.pop = b :=
  Builder.pop_of_bottom (List.eq_nil_of_length_eq_zero (Nat.succ.inj h))

theorem Builder.pop_cases (b : Builder) :
    (b.outer = [] ∧ b.pop = b) ∨ ∃ s rest, b.outer = s :: rest ∧
      b.pop = { b with top := s, outer := rest, switches := b.switchesOutside } := by
  cases h : b.outer with
  | nil => exact .inl ⟨rfl, Builder.pop_of_bottom h⟩
  | cons s rest => exact .inr ⟨s, rest, rfl, Builder.pop_of_outer h⟩

theorem Builder.leaveFor_cases (b : Builder) (k : Kind) :
    b.leaveFor k = b ∨ b.leaveFor k = b.pop := by
  unfold Builder.leaveFor
  split
  · exact .inr rfl
  · exact .inl rfl

theorem Builder.leaveFor_of_stays {k : Kind} (h : k.leaves = none) (b : Builder) :
    b.leaveFor k = b := by
  simp [Builder.leaveFor, h]

/-! ## braces -/

/-- a statement that nothing is done about before it is classified -/
structure IsOrdinary (t : Text) : Prop where
  declares : declares t = false
  skipped : isSkipped t = false
  notBrace : t ≠ ['{']
  notCloser : closesScope t = false

theorem Builder.braces_of_ordinary {b : Builder} {t : Text} (hb : b.ignored = 0)
    (h : IsOrdinary t) : b.braces t = (b, some t) := by
  simp [Builder.braces, h.declares, h.skipped, h.notBrace, h.notCloser, hb]

theorem Builder.braces_cases (b : Builder) (t : Text) :
    (∃ n, (b.braces t).1 = { b with ignored := n }) ∨ (b.braces t).1 = b.pop := by
  unfold Builder.braces
  split
  · split
    · exact .inl ⟨_, rfl⟩
    · exact .inl ⟨b.ignored, rfl⟩
  · split
    · exact .inl ⟨b.ignored, rfl⟩
    · split
      · exact .inl ⟨_, rfl⟩
      · split
        · exact .inl ⟨b.ignored, rfl⟩
        · split
          · exact .inr rfl
          · exact .inl ⟨b.ignored, rfl⟩

/-! ## the end of a text -/

/-- the end of a text leaves at most a notice -/
theorem Builder.finish_eq (b : Builder) : ∃ notices, b.finish = { b with notices := notices } := by
  unfold Builder.finish
  split
  · exact ⟨b.notices, rfl⟩
  · exact ⟨_, rfl⟩

/-! ## calls -/

/-- what can be asked of a builder: the braces of a text, a statement as one of some kind whether
its text fits or not, a whole source text -/
inductive Builder.Call where
  | braces (t : Text)
  | add (k : Kind) (t : Text) (line : Int)
  | run (src : Text)

def Builder.perform (b : Builder) : Builder.Call → Builder
  | .braces t => (b.braces t).1
  | .add k t line => b.add k t line
  | .run src => b.run src

def Builder.performAll (b : Builder) (calls : List Builder.Call) : Builder :=
  calls.foldl Builder.perform b

/-- some calls lead to the state -/
def Builder.Reachable (b : Builder) : Prop := ∃ calls, Builder.fresh.performAll calls = b

section
variable {P : Builder → Prop}
  (ignore : ∀ b n, P b → P { b with ignored := n })
  (pop : ∀ b, P b → P b.pop)
  (add : ∀ b k t line, P b → P (b.add k t line))
include ignore pop

theorem Builder.braces_induction {b : Builder} (h : P b) (t : Text) : P (b.braces t).1 := by
  rcases b.braces_cases t with ⟨n, hn⟩ | hp
  · rw [hn]
    exact ignore b n h
  · rw [hp]
    exact pop b h

include add

theorem Builder.feed_induction {b : Builder} (h : P b) (s : Statement) : P (b.feed s) := by
  have hb := Builder.braces_induction ignore pop h s.text
  unfold Builder.feed
  split
  · rename_i b' hs
    rw [hs] at hb
    exact hb
  · rename_i b' t hs
    rw [hs] at hb
    exact add b' _ _ _ hb

theorem Builder.feedAll_induction {b : Builder} (h : P b) (ss : List Statement) :
    P (b.feedAll ss) := by
  induction ss generalizing b with
  | nil => exact h
  | cons s ss ih =>
    rw [Builder.feedAll_cons]
    exact ih (Builder.feed_induction ignore pop add h s)

/-- what all steps keep, every sequence of calls keeps -/
theorem Builder.performAll_induction
    (note : ∀ b scopes ignored, P b →
      P { b with notices := b.notices ++ [.unfinished scopes ignored] })
    {b : Builder} (h : P b) (calls : List Builder.Call) : P (b.performAll calls) := by
  induction calls generalizing b with
  | nil => exact h
  | cons call calls ih =>
    refine ih (b := b.perform call) ?_
    cases call with
    | braces t => exact Builder.braces_induction ignore pop h t
    | add k t line => exact add b k t line h
    | run src =>
      have hb := Builder.feedAll_induction ignore pop add h (statements src)
      show P (b.feedAll (statements src)).finish
      unfold Builder.finish
      split
      · exact hb
      · exact note _ _ _ hb

end

end CodeChart
