import CodeChart.Proofs.Builder.Step
import CodeChart.Proofs.Source.Below

/-!
# Two source texts in one builder

The statements of a lower text are those of the text alone, further down, and a line number is
written down without ever being read again.  So one run over two texts does what two runs do.

* `Builder.Below`       two builders that agree in all but the lines of what was drawn last;
* `Builder.Below.pop`, `.draw`, `.settle`, `.feed`   every step keeps this;
* `Builder.Below.feedAll`   so do statements that stand further down in the one than in the other;
* `run_append`          two texts, one below the other, in two runs or in one.
-/

namespace CodeChart

def Node.below (n : Nat) (x : Node) : Node := { x with line := x.line + n }

/-- the line of an identifier, if that is one of `drawn` then further down -/
def lineBelow (n : Nat) (drawn : List Node) (id : NodeId) (line : Int) : Int :=
  if id ∈ drawn.map Node.id then line + n else line

/-- `b'` is `b` but for what was drawn after `before`, which stands `n` lines further down -/
structure Builder.Below (n : Nat) (before drawn : List Node) (b b' : Builder) : Prop where
  top : b'.top = b.top
  outer : b'.outer = b.outer
  switches : b'.switches = b.switches
  ignored : b'.ignored = b.ignored
  counter : b'.counter = b.counter
  edges : b'.edges = b.edges
  cases : b'.cases = b.cases
  upper : b.nodes = before ++ drawn
  lower : b'.nodes = before ++ drawn.map (Node.below n)
  keys : b'.lines.map Prod.fst = b.lines.map Prod.fst
  lines : ∀ id, b'.lines.lookup id = (b.lines.lookup id).map (lineBelow n drawn id)

theorem Assoc.keys_set (m m' : List (NodeId × Int)) (h : m.map Prod.fst = m'.map Prod.fst)
    (id : NodeId) (v w : Int) :
    (Assoc.set m id v).map Prod.fst = (Assoc.set m' id w).map Prod.fst := by
  induction m generalizing m' with
  | nil =>
    rw [List.map_nil, eq_comm, List.map_eq_nil_iff] at h
    rw [h]
    rfl
  | cons e m ih =>
    cases m' with
    | nil => cases h
    | cons e' m' =>
      obtain ⟨hkey, hrest⟩ := List.cons.inj h
      have hkey' : e.1 = e'.1 := hkey
      rw [Assoc.set, Assoc.set, hkey']
      split
      · rw [List.map_cons, List.map_cons, hrest]
      · rw [List.map_cons, List.map_cons, hkey, ih m' hrest]

theorem lineBelow_nil (n : Nat) (id : NodeId) : lineBelow n [] id = fun line => line := rfl

theorem lineBelow_last (n : Nat) (drawn : List Node) (x : Node) (line : Int) :
    lineBelow n (drawn ++ [x]) x.id line = line + n :=
  if_pos (by simp)

theorem lineBelow_of_ne (n : Nat) (drawn : List Node) {x : Node} {id : NodeId} (h : id ≠ x.id) :
    lineBelow n (drawn ++ [x]) id = lineBelow n drawn id := by
  funext line
  simp [lineBelow, h]

namespace Builder.Below

variable {n : Nat} {before drawn : List Node} {b b' : Builder}

/-! ## the operations -/

/-- nothing is drawn yet, and the notices are not read -/
theorem start (n : Nat) (b : Builder) (notices : List BuilderNotice) :
    Below n b.nodes [] { b with notices := notices } b where
  top := rfl
  outer := rfl
  switches := rfl
  ignored := rfl
  counter := rfl
  edges := rfl
  cases := rfl
  upper := (List.append_nil _).symm
  lower := (List.append_nil _).symm
  keys := rfl
  lines id := by
    rw [lineBelow_nil, Option.map_id_fun']
    rfl

/-- the scopes and the ignored braces can change in both -/
theorem rescope (h : Below n before drawn b b') (top : Scope) (outer : List Scope)
    (switches : List SwitchScope) (ignored : Nat) : Below n before drawn
      { b with top := top, outer := outer, switches := switches, ignored := ignored }
      { b' with top := top, outer := outer, switches := switches, ignored := ignored } :=
  { h with top := rfl, outer := rfl, switches := rfl, ignored := rfl }

theorem depth_eq (h : Below n before drawn b b') : b'.depth = b.depth := by
  rw [depth, depth, h.outer]

theorem nextId_eq (h : Below n before drawn b b') : b'.nextId = b.nextId := by
  rw [nextId, nextId, h.counter]

theorem currentSwitch_eq (h : Below n before drawn b b') : b'.currentSwitch = b.currentSwitch := by
  rw [currentSwitch, currentSwitch, h.switches]

theorem pop (h : Below n before drawn b b') : Below n before drawn b.pop b'.pop := by
  have hswitches : b'.switchesOutside = b.switchesOutside := by
    rw [switchesOutside, switchesOutside, h.switches, h.depth_eq]
  rcases b.pop_cases with ⟨ho, hp⟩ | ⟨s, rest, ho, hp⟩
  · rw [hp, pop_of_bottom (h.outer.trans ho)]
    exact h
  · have hrescoped := h.rescope s rest b.switchesOutside b.ignored
    rw [hp, pop_of_outer (h.outer.trans ho), hswitches]
    exact { hrescoped with ignored := h.ignored }

theorem leaveFor (h : Below n before drawn b b') (k : Kind) :
    Below n before drawn (b.leaveFor k) (b'.leaveFor k) := by
  unfold Builder.leaveFor
  rw [h.top]
  split
  · exact h.pop
  · exact h

theorem draw (h : Below n before drawn b b') (k : Kind) (t : Text) (line : Int) :
    Below n before (drawn ++ [⟨b.nextId, k.label t, k.category t, some k, line⟩])
      (b.draw k t line) (b'.draw k t (line + n)) := by
  have hsource : b'.sourceFor k = b.sourceFor k := by
    unfold sourceFor
    rw [h.currentSwitch_eq, h.top]
  have hcases : b'.casesWith k b.nextId = b.casesWith k b.nextId := by
    unfold casesWith
    rw [h.currentSwitch_eq, h.cases]
  rw [draw_eq, draw_eq, h.nextId_eq, hsource, hcases]
  refine ⟨h.top, h.outer, h.switches, h.ignored, congrArg (· + 1) h.counter,
    congrArg (· ++ _) h.edges, rfl, ?_, ?_, Assoc.keys_set _ _ h.keys _ _ _, fun id => ?_⟩
  · show b.nodes ++ _ = _
    rw [h.upper, List.append_assoc]
  · show b'.nodes ++ _ = _
    rw [h.lower, List.append_assoc, List.map_append]
    rfl
  · show List.lookup id (Assoc.set b'.lines _ _) = (List.lookup id (Assoc.set b.lines _ _)).map _
    rw [Assoc.lookup_set, Assoc.lookup_set, h.lines]
    by_cases hid : id = b.nextId
    · subst hid
      rw [if_pos rfl, if_pos rfl, Option.map_some]
      exact congrArg some (lineBelow_last n drawn ⟨b.nextId, _, _, _, _⟩ line).symm
    · rw [if_neg hid, if_neg hid, lineBelow_of_ne n drawn hid]

theorem settle (h : Below n before drawn b b') (k : Kind) (p : Placement) (id : NodeId) :
    Below n before drawn (b.settle k p id) (b'.settle k p id) := by
  cases p with
  | nest =>
    rw [settle_nest, settle_nest, h.top, h.outer, h.switches, h.depth_eq]
    exact { h.rescope _ _ _ b.ignored with ignored := h.ignored }
  | chain =>
    rw [settle_chain, settle_chain, replaceTop, replaceTop, h.top]
    exact { h with top := rfl }
  | stay =>
    rw [settle_stay, settle_stay]
    exact h

theorem add (h : Below n before drawn b b') (k : Kind) (t : Text) (line : Int) :
    ∃ x, Below n before (drawn ++ [x]) (b.add k t line) (b'.add k t (line + n)) := by
  have hleft := h.leaveFor k
  rw [Builder.add, Builder.add, hleft.nextId_eq]
  exact ⟨_, (hleft.draw k t line).settle k _ _⟩

/-! ## statements -/

theorem braces (h : Below n before drawn b b') (t : Text) :
    Below n before drawn (b.braces t).1 (b'.braces t).1 ∧ (b'.braces t).2 = (b.braces t).2 := by
  unfold Builder.braces
  rw [h.ignored]
  split
  · split
    · exact ⟨{ h with ignored := rfl }, rfl⟩
    · exact ⟨h, rfl⟩
  split
  · exact ⟨h, rfl⟩
  split
  · exact ⟨{ h with ignored := rfl }, rfl⟩
  split
  · exact ⟨h, rfl⟩
  split
  · exact ⟨h.pop, rfl⟩
  · exact ⟨h, rfl⟩

theorem feed (h : Below n before drawn b b') (s : Statement) :
    ∃ more, Below n before (drawn ++ more) (b.feed s) (b'.feed (s.below n)) := by
  have htext : (s.below n).text = s.text := rfl
  obtain ⟨hbraces, hleft⟩ := h.braces s.text
  unfold Builder.feed
  rw [htext]
  generalize b.braces s.text = r at hbraces hleft
  generalize b'.braces s.text = r' at hbraces hleft
  obtain ⟨c, left⟩ := r
  obtain ⟨c', left'⟩ := r'
  obtain rfl : left' = left := hleft
  cases left' with
  | none => exact ⟨[], by rw [List.append_nil]; exact hbraces⟩
  | some t =>
    obtain ⟨x, hx⟩ := hbraces.add (Kind.ofText t) t s.line
    exact ⟨[x], hx⟩

theorem feedAll (h : Below n before drawn b b') (ss : List Statement) :
    ∃ more, Below n before (drawn ++ more) (b.feedAll ss)
      (b'.feedAll (ss.map (Statement.below n))) := by
  induction ss generalizing b b' drawn with
  | nil => exact ⟨[], by rw [List.append_nil]; exact h⟩
  | cons s ss ih =>
    obtain ⟨one, hone⟩ := h.feed s
    obtain ⟨more, hmore⟩ := ih hone
    rw [List.append_assoc] at hmore
    exact ⟨one ++ more, hmore⟩

/-- a notice at the end is no part of the chart -/
theorem finish (h : Below n before drawn b b') : Below n before drawn b.finish b'.finish := by
  obtain ⟨_, hb⟩ := b.finish_eq
  obtain ⟨_, hb'⟩ := b'.finish_eq
  rw [hb, hb']
  exact { h with }

end Builder.Below

/-! ## two texts -/

/-- **source texts compose**: of two texts, one below the other, each is read and drawn as it is
alone, and the lines of the lower one are that far down -/
theorem run_append {a : Text} (h : ClosesComments a) (b : Text) :
    statements (a ++ '\n' :: b)
      = statements a ++ (statements b).map (Statement.below (1 + newlines a)) ∧
    ∀ s : Builder, ∃ drawn, Builder.Below (1 + newlines a) (s.run a).nodes drawn
      ((s.run a).run b) (s.run (a ++ '\n' :: b)) := by
  refine ⟨statements_append h b, fun s => ?_⟩
  have hstart : Builder.Below (1 + newlines a) (s.run a).nodes [] (s.run a)
      (s.feedAll (statements a)) := by
    obtain ⟨notices, hnotices⟩ := (s.feedAll (statements a)).finish_eq
    rw [Builder.run, hnotices]
    exact .start _ (s.feedAll (statements a)) notices
  obtain ⟨drawn, hdrawn⟩ := hstart.feedAll (statements b)
  rw [← Builder.feedAll_append, ← statements_append h b] at hdrawn
  exact ⟨drawn, hdrawn.finish⟩

/-- a block that is still open at the end of the upper text and closed in the lower one -/
theorem run_append_openBlock :
    ClosesComments "if (a) \x7b /* one\n*/ b();".toList ∧
    statements ("if (a) \x7b /* one\n*/ b();".toList ++ '\n' :: "c();\n\x7d".toList)
      = statements "if (a) \x7b /* one\n*/ b();".toList
        ++ (statements "c();\n\x7d".toList).map (Statement.below 2) ∧
    ∃ drawn, Builder.Below 2 (Builder.ofSource "if (a) \x7b /* one\n*/ b();".toList).nodes drawn
      ((Builder.ofSource "if (a) \x7b /* one\n*/ b();".toList).run "c();\n\x7d".toList)
      (Builder.ofSource ("if (a) \x7b /* one\n*/ b();".toList ++ '\n' :: "c();\n\x7d".toList)) := by
  have ha : ClosesComments "if (a) \x7b /* one\n*/ b();".toList :=
    @ClosesComments.comment "if (a) \x7b ".toList "/* one\n*/".toList " b();".toList
      (isFirstComment_iff.2 ⟨by decide, " one\n".toList, by decide, by decide⟩) (.code (by decide))
  have hline : 1 + newlines "if (a) \x7b /* one\n*/ b();".toList = 2 := by decide
  have hall := run_append ha "c();\n\x7d".toList
  rw [hline] at hall
  exact ⟨ha, hall.1, hall.2 Builder.fresh⟩

end CodeChart
