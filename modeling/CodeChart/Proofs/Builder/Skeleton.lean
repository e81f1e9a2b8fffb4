import CodeChart.Proofs.Builder.Step
import Mathlib.Data.List.Forall2

/-!
# The skeleton of a flowchart

A builder looks at the text of a statement for its kind and its braces.  Everything else about
the text goes into labels, which are never read again.

* `Builder.skeleton`           kinds of nodes, ends and styles of edges, and the open scopes;
* `Builder.textless`        a builder without labels; every operation does the same to it;
* `ReadsAlike`              two texts in which a builder finds the same;
* `Builder.textless_feed`   one statement;
* `Builder.skeleton_congr`     two source texts whose statements read alike.
-/

namespace CodeChart

/-! ## skeletons -/

structure Skeleton where
  kinds : List (Option Kind)
  edges : List (NodeId × NodeId × EdgeStyle)
  scopeKinds : List (Option Kind)
  switchDepths : List Nat
  ignored : Nat
  deriving DecidableEq, Repr

def Edge.ends (e : Edge) : NodeId × NodeId × EdgeStyle := (e.source, e.target, e.style)

def Builder.skeleton (b : Builder) : Skeleton :=
  ⟨b.nodes.map Node.kind, b.edges.map Edge.ends, b.scopeKinds, b.switches.map SwitchScope.depth,
    b.ignored⟩

def Node.textless (n : Node) : Node := { n with label := [], category := .standard, line := 0 }

def Edge.textless (e : Edge) : Edge := { e with tag := none }

/-- nothing is left that is written down without being read again -/
def Builder.textless (b : Builder) : Builder :=
  { b with
    nodes := b.nodes.map Node.textless
    edges := b.edges.map Edge.textless
    lines := []
    cases := []
    notices := [] }

theorem Builder.skeleton_textless (b : Builder) : b.textless.skeleton = b.skeleton := by
  simp only [Builder.skeleton, Builder.textless, List.map_map]
  rfl

/-! ## texts that read alike -/

/-- two texts that are classified in the same way and put in the same place -/
structure SameKind (t u : Text) : Prop where
  kind : Kind.ofText t = Kind.ofText u
  placement : ∀ k : Kind, k.placement t = k.placement u

structure ReadsAlike (t u : Text) : Prop extends SameKind t u where
  declares : declares t = declares u
  skipped : isSkipped t = isSkipped u
  balance : braceBalance t = braceBalance u
  brace : t = ['{'] ↔ u = ['{']
  closes : closesScope t = closesScope u
  leftEmpty : (afterClosers t).isEmpty = (afterClosers u).isEmpty
  left : SameKind (afterClosers t) (afterClosers u)

theorem SameKind.refl (t : Text) : SameKind t t := ⟨rfl, fun _ => rfl⟩

theorem ReadsAlike.refl (t : Text) : ReadsAlike t t :=
  ⟨.refl t, rfl, rfl, rfl, Iff.rfl, rfl, rfl, .refl _⟩

namespace Builder

variable (b : Builder)

/-! ## the operations -/

theorem textless_pop : b.pop.textless = b.textless.pop := by
  rcases b.pop_cases with ⟨ho, hp⟩ | ⟨s, rest, ho, hp⟩
  · rw [hp, pop_of_bottom (b := b.textless) ho]
  · rw [hp, pop_of_outer (b := b.textless) ho]
    rfl

theorem textless_leaveFor (k : Kind) : (b.leaveFor k).textless = b.textless.leaveFor k := by
  unfold leaveFor
  rw [show b.textless.top = b.top from rfl]
  split
  · exact b.textless_pop
  · rfl

/-- what is left of `draw` without the text -/
def drawTextless (k : Kind) : Builder :=
  { b with
    nodes := b.nodes ++ [⟨b.nextId, [], .standard, some k, 0⟩]
    edges := b.edges ++ [⟨b.sourceFor k, b.nextId, k.edgeStyle, none⟩]
    counter := b.counter + 1 }

theorem textless_draw (k : Kind) (t : Text) (line : Int) :
    (b.draw k t line).textless = b.textless.drawTextless k := by
  have hsource : b.textless.sourceFor k = b.sourceFor k := by
    cases k <;> rfl
  rw [draw_eq, drawTextless, hsource]
  simp only [textless, List.map_append]
  rfl

theorem textless_settle (k : Kind) (p : Placement) (id : NodeId) :
    (b.settle k p id).textless = b.textless.settle k p id := by
  cases p with
  | nest =>
    rw [settle_nest, settle_nest]
    rfl
  | chain =>
    rw [settle_chain, settle_chain]
    rfl
  | stay => rw [settle_stay, settle_stay]

theorem textless_add (k : Kind) (t : Text) (line : Int) : (b.add k t line).textless
    = ((b.textless.leaveFor k).drawTextless k).settle k (k.placement t)
        (b.textless.leaveFor k).nextId := by
  rw [add, textless_settle, textless_draw, textless_leaveFor, ← textless_leaveFor]
  rfl

theorem textless_finish : b.finish.textless = b.textless := by
  unfold finish
  split <;> rfl

theorem skeleton_finish : b.finish.skeleton = b.skeleton := by
  rw [← skeleton_textless, textless_finish, skeleton_textless]

/-! ## statements -/

variable {b} {b' : Builder}

theorem textless_braces (hb : b.textless = b'.textless) {t u : Text} (h : ReadsAlike t u) :
    (b.braces t).1.textless = (b'.braces u).1.textless ∧
      ((b.braces t).2 = none ∧ (b'.braces u).2 = none ∨
        ∃ v w, (b.braces t).2 = some v ∧ (b'.braces u).2 = some w ∧ SameKind v w) := by
  have hignored : b.ignored = b'.ignored := by
    have hi := congrArg Builder.ignored hb
    exact hi
  have hignore : ∀ n, ({ b with ignored := n } : Builder).textless
      = ({ b' with ignored := n } : Builder).textless := by
    intro n
    have hi := congrArg (fun b : Builder => { b with ignored := n }) hb
    exact hi
  have hpop : b.pop.textless = b'.pop.textless := by rw [textless_pop, textless_pop, hb]
  have hopen : opensScope t = opensScope u := by rw [opensScope, opensScope, h.balance]
  unfold braces
  rw [h.declares, h.skipped, hignored, hopen, h.balance, h.closes, h.leftEmpty]
  split
  · refine ⟨?_, .inl ⟨rfl, rfl⟩⟩
    split
    · exact hignore _
    · exact hb
  split
  · exact ⟨hb, .inl ⟨rfl, rfl⟩⟩
  split
  · exact ⟨hignore _, .inl ⟨rfl, rfl⟩⟩
  by_cases hbrace : u = ['{']
  · rw [if_pos hbrace, if_pos (h.brace.2 hbrace)]
    exact ⟨hb, .inl ⟨rfl, rfl⟩⟩
  rw [if_neg hbrace, if_neg fun ht => hbrace (h.brace.1 ht)]
  split
  · refine ⟨hpop, ?_⟩
    split
    · exact .inl ⟨rfl, rfl⟩
    · exact .inr ⟨_, _, rfl, rfl, h.left⟩
  · exact ⟨hb, .inr ⟨_, _, rfl, rfl, h.toSameKind⟩⟩

theorem textless_feed (hb : b.textless = b'.textless) {s s' : Statement}
    (h : ReadsAlike s.text s'.text) : (b.feed s).textless = (b'.feed s').textless := by
  obtain ⟨hstate, hleft⟩ := textless_braces hb h
  rw [feed, feed]
  generalize b.braces s.text = x at hstate hleft
  generalize b'.braces s'.text = y at hstate hleft
  obtain ⟨c, left⟩ := x
  obtain ⟨c', left'⟩ := y
  rcases hleft with ⟨rfl, rfl⟩ | ⟨v, w, rfl, rfl, hsame⟩
  · exact hstate
  · show (c.add _ v _).textless = (c'.add _ w _).textless
    rw [textless_add, textless_add, show c.textless = c'.textless from hstate, hsame.kind,
      hsame.placement]

theorem textless_feedAll (hb : b.textless = b'.textless) {ss ss' : List Statement}
    (h : List.Forall₂ (fun s s' => ReadsAlike s.text s'.text) ss ss') :
    (b.feedAll ss).textless = (b'.feedAll ss').textless := by
  induction h generalizing b b' with
  | nil => exact hb
  | cons hs _ ih =>
    rw [feedAll_cons, feedAll_cons]
    exact ih (textless_feed hb hs)

/-- **statements that read alike draw the same skeleton**, whatever their texts -/
theorem skeleton_congr {src src' : Text} (h : List.Forall₂ ReadsAlike
    ((statements src).map Statement.text) ((statements src').map Statement.text)) :
    (ofSource src).skeleton = (ofSource src').skeleton := by
  rw [List.forall₂_map_left_iff, List.forall₂_map_right_iff] at h
  rw [ofSource, ofSource, run, run, skeleton_finish, skeleton_finish, ← skeleton_textless,
    textless_feedAll rfl h, skeleton_textless]

end Builder

end CodeChart
