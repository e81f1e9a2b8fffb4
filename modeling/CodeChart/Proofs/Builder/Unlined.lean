import CodeChart.Proofs.Builder.Step

/-!
# Flowcharts up to line numbers

The line of a statement is written into its node and into the table of lines, and is never read
again.  So a run can forget the lines as it goes.

* `Builder.withoutLines`        a builder whose nodes all stand on line zero;
* `Builder.withoutLines_feed`   one statement: the lines can be forgotten before or after it;
* `Builder.withoutLines_ofSource_congr`   two source texts with the same statements, on whatever
                                lines, have the same flowchart and leave the same state.
-/

namespace CodeChart

def Node.withoutLine (n : Node) : Node := { n with line := 0 }

def Builder.withoutLines (b : Builder) : Builder :=
  { b with
    nodes := b.nodes.map Node.withoutLine
    lines := b.lines.map fun e => (e.1, 0) }

def Statement.withoutLine (s : Statement) : Statement := { s with line := 0 }

theorem Assoc.map_set (m : List (NodeId × Int)) (key : NodeId) (v : Int) :
    (Assoc.set m key v).map (fun e => (e.1, (0 : Int)))
      = Assoc.set (m.map fun e => (e.1, 0)) key 0 := by
  induction m with
  | nil => rfl
  | cons e m ih =>
    rw [Assoc.set, List.map_cons, Assoc.set]
    by_cases h : e.1 = key
    · rw [if_pos h, if_pos h]
      rfl
    · rw [if_neg h, if_neg h, List.map_cons, ih]

namespace Builder

variable (b : Builder)

/-! ## the operations -/

theorem withoutLines_pop : b.pop.withoutLines = b.withoutLines.pop := by
  rcases b.pop_cases with ⟨ho, hp⟩ | ⟨s, rest, ho, hp⟩
  · rw [hp, pop_of_bottom (b := b.withoutLines) ho]
  · rw [hp, pop_of_outer (b := b.withoutLines) ho]
    rfl

theorem withoutLines_leaveFor (k : Kind) :
    (b.leaveFor k).withoutLines = b.withoutLines.leaveFor k := by
  unfold leaveFor
  rw [show b.withoutLines.top = b.top from rfl]
  split
  · exact b.withoutLines_pop
  · rfl

theorem withoutLines_draw (k : Kind) (t : Text) (line : Int) :
    (b.draw k t line).withoutLines = b.withoutLines.draw k t 0 := by
  rw [draw_eq, draw_eq]
  simp only [withoutLines, List.map_append, Assoc.map_set]
  rfl

theorem withoutLines_settle (k : Kind) (p : Placement) (id : NodeId) :
    (b.settle k p id).withoutLines = b.withoutLines.settle k p id := by
  cases p with
  | nest =>
    rw [settle_nest, settle_nest]
    rfl
  | chain =>
    rw [settle_chain, settle_chain]
    rfl
  | stay => rw [settle_stay, settle_stay]

theorem withoutLines_add (k : Kind) (t : Text) (line : Int) :
    (b.add k t line).withoutLines = b.withoutLines.add k t 0 := by
  rw [add, add, withoutLines_settle, withoutLines_draw, withoutLines_leaveFor,
    ← withoutLines_leaveFor]
  rfl

theorem withoutLines_braces (t : Text) :
    b.withoutLines.braces t = ((b.braces t).1.withoutLines, (b.braces t).2) := by
  unfold braces
  rw [show b.withoutLines.ignored = b.ignored from rfl]
  split
  · split <;> rfl
  split
  · rfl
  split
  · rfl
  split
  · rfl
  split
  · rw [withoutLines_pop]
  · rfl

/-! ## statements -/

theorem withoutLines_feed (s : Statement) :
    (b.feed s).withoutLines = b.withoutLines.feed s.withoutLine := by
  rw [feed, feed, show s.withoutLine.text = s.text from rfl, withoutLines_braces]
  obtain ⟨b', left⟩ := b.braces s.text
  cases left with
  | none => rfl
  | some t => exact b'.withoutLines_add (Kind.ofText t) t s.line

theorem withoutLines_feedAll (ss : List Statement) :
    (b.feedAll ss).withoutLines = b.withoutLines.feedAll (ss.map Statement.withoutLine) := by
  induction ss generalizing b with
  | nil => rfl
  | cons s ss ih => rw [feedAll_cons, ih, withoutLines_feed, List.map_cons, feedAll_cons]

theorem withoutLines_finish : b.finish.withoutLines = b.withoutLines.finish := by
  unfold finish
  rw [show b.withoutLines.outer = b.outer from rfl,
    show b.withoutLines.ignored = b.ignored from rfl]
  split <;> rfl

/-- the lines on which the statements of a text stand leave no trace but the line numbers -/
theorem withoutLines_ofSource_congr {src src' : Text}
    (h : (statements src).map Statement.text = (statements src').map Statement.text) :
    (ofSource src).withoutLines = (ofSource src').withoutLines := by
  have hforget : ∀ ss : List Statement, ss.map Statement.withoutLine
      = (ss.map Statement.text).map fun t => ⟨t, 0⟩ := by
    intro ss
    rw [List.map_map]
    rfl
  rw [ofSource, ofSource, run, run, withoutLines_finish, withoutLines_finish,
    withoutLines_feedAll, withoutLines_feedAll, hforget, hforget, h]

end Builder

end CodeChart
