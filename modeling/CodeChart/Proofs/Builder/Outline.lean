import CodeChart.Proofs.Builder.Invariant

/-!
# Blocks, read without a stack

Statements whose braces match are blocks inside blocks.  A recursive reading of such blocks needs
no stacks: it carries the node that the next statement hangs on and the switch around it.

* `Item`            a statement that closes nothing, or an opening statement, the items of its
                    block and a closing brace;
* `Drawing`         what has been drawn, and the node that the next statement hangs on;
* `Item.draw`, `drawItems`   the recursive reading;
* `Builder.Sound.feed_chain`, `feed_jump`, `feed_opener`, `Builder.feed_closer`   what the builder
                    does at one statement, said about drawings;
* `Builder.feedAll_itemStatements`   feeding the statements one by one comes to the same, from
                    every state in which nothing is ignored, and leaves the stacks as they were.
-/

namespace CodeChart

/-! ## items -/

/-- a statement that is neither a declaration nor skipped, closes nothing and follows on nothing -/
structure IsItemText (t : Text) (balance : Int) : Prop where
  declares : declares t = false
  skipped : isSkipped t = false
  notBrace : t ≠ ['{']
  notCloser : t.head? ≠ some '}'
  notAlternative : Kind.ofText t ≠ .alternative
  notHandler : Kind.ofText t ≠ .handler
  balance : braceBalance t = balance

def headerKinds : List Kind := [.conditional, .loop, .doLoop, .tryBlock, .switch]

/-- a plain statement, a loop whose body is over, or a header with an empty block -/
structure IsChain (t : Text) : Prop where
  text : IsItemText t 0
  shape : Kind.ofText t = .plain ∨ (Kind.ofText t = .loop ∧ t.getLast? = some ';') ∨
    (Kind.ofText t ∈ headerKinds ∧ '{' ∈ t)

structure IsJump (t : Text) : Prop where
  text : IsItemText t 0
  kind : Kind.ofText t = .jump

structure IsLabel (t : Text) : Prop where
  text : IsItemText t 0
  kind : Kind.ofText t = .caseLabel

structure IsOpener (t : Text) : Prop where
  text : IsItemText t 1
  kind : Kind.ofText t ∈ headerKinds ++ [.caseLabel, .plain]
  brace : t.getLast? = some '{'

def IsCloser (t : Text) : Prop := t = ['}'] ∨ t = ['}', ';']

instance (t : Text) (n : Int) : Decidable (IsItemText t n) :=
  decidable_of_iff (CodeChart.declares t = false ∧ isSkipped t = false ∧ t ≠ ['{'] ∧
      t.head? ≠ some '}' ∧ Kind.ofText t ≠ .alternative ∧ Kind.ofText t ≠ .handler ∧
      braceBalance t = n)
    ⟨fun ⟨hd, hs, hb, hc, ha, hh, hn⟩ => ⟨hd, hs, hb, hc, ha, hh, hn⟩,
      fun ⟨hd, hs, hb, hc, ha, hh, hn⟩ => ⟨hd, hs, hb, hc, ha, hh, hn⟩⟩

instance (t : Text) : Decidable (IsChain t) :=
  decidable_of_iff (IsItemText t 0 ∧ (Kind.ofText t = .plain ∨
      (Kind.ofText t = .loop ∧ t.getLast? = some ';') ∨ (Kind.ofText t ∈ headerKinds ∧ '{' ∈ t)))
    ⟨fun ⟨ht, hs⟩ => ⟨ht, hs⟩, fun ⟨ht, hs⟩ => ⟨ht, hs⟩⟩

instance (t : Text) : Decidable (IsJump t) :=
  decidable_of_iff (IsItemText t 0 ∧ Kind.ofText t = .jump)
    ⟨fun ⟨ht, hk⟩ => ⟨ht, hk⟩, fun ⟨ht, hk⟩ => ⟨ht, hk⟩⟩

instance (t : Text) : Decidable (IsLabel t) :=
  decidable_of_iff (IsItemText t 0 ∧ Kind.ofText t = .caseLabel)
    ⟨fun ⟨ht, hk⟩ => ⟨ht, hk⟩, fun ⟨ht, hk⟩ => ⟨ht, hk⟩⟩

instance (t : Text) : Decidable (IsOpener t) :=
  decidable_of_iff (IsItemText t 1 ∧ Kind.ofText t ∈ headerKinds ++ [.caseLabel, .plain] ∧
      t.getLast? = some '{')
    ⟨fun ⟨ht, hk, hb⟩ => ⟨ht, hk, hb⟩, fun ⟨ht, hk, hb⟩ => ⟨ht, hk, hb⟩⟩

instance (t : Text) : Decidable (IsCloser t) :=
  inferInstanceAs (Decidable (t = ['}'] ∨ t = ['}', ';']))

inductive Item where
  | chain (s : Statement) (h : IsChain s.text)
  | jump (s : Statement) (h : IsJump s.text)
  | label (s : Statement) (h : IsLabel s.text)
  | block (opener : Statement) (ho : IsOpener opener.text) (body : List Item)
    (closer : Statement) (hc : IsCloser closer.text)

mutual

/-- the statements of an item in the order in which they are written -/
def Item.statements : Item → List Statement
  | .chain s _ | .jump s _ | .label s _ => [s]
  | .block opener _ body closer _ => opener :: (itemStatements body ++ [closer])

def itemStatements : List Item → List Statement
  | [] => []
  | i :: rest => i.statements ++ itemStatements rest

end

/-! ## the recursive reading -/

/-- nodes, edges and the cases of the switches, and the node that the next statement hangs on -/
structure Drawing where
  nodes : List Node
  edges : List Edge
  cases : List (NodeId × List NodeId)
  parent : NodeId

def Drawing.empty : Drawing := ⟨[], [], [], .start⟩

def Drawing.nextId (d : Drawing) : NodeId := .node d.nodes.length

/-- a case label hangs on the innermost enclosing switch, if there is one -/
def Drawing.source (d : Drawing) (switch : Option NodeId) (k : Kind) : NodeId :=
  if k = .caseLabel then switch.getD d.parent else d.parent

def Drawing.casesAfter (d : Drawing) (switch : Option NodeId) (k : Kind) :
    List (NodeId × List NodeId) :=
  if k = .switch then d.cases ++ [(d.nextId, [])]
  else if k = .caseLabel then
    d.cases.map fun e => if some e.1 = switch then (e.1, e.2 ++ [d.nextId]) else e
  else d.cases

/-- a node for the statement and its edge; the parent stays -/
def Drawing.hang (d : Drawing) (switch : Option NodeId) (s : Statement) : Drawing :=
  let k := Kind.ofText s.text
  { nodes := d.nodes ++ [⟨d.nextId, k.label s.text, k.category s.text, some k, s.line⟩]
    edges := d.edges ++ [⟨d.source switch k, d.nextId, .solid,
      if k = .caseLabel then some (k.label s.text) else none⟩]
    cases := d.casesAfter switch k
    parent := d.parent }

def Drawing.under (d : Drawing) (parent : NodeId) : Drawing := { d with parent := parent }

mutual

def Item.draw (switch : Option NodeId) (d : Drawing) : Item → Drawing
  | .chain s _ => (d.hang switch s).under d.nextId
  | .jump s _ => d.hang switch s
  | .label s _ => (d.hang switch s).under d.nextId
  | .block opener _ body _ _ =>
    let inner := if Kind.ofText opener.text = .switch then some d.nextId else switch
    (drawItems inner ((d.hang switch opener).under d.nextId) body).under d.parent

def drawItems (switch : Option NodeId) (d : Drawing) : List Item → Drawing
  | [] => d
  | i :: rest => drawItems switch (i.draw switch d) rest

end

/-! ## drawings of builders -/

def Builder.drawing (b : Builder) : Drawing := ⟨b.nodes, b.edges, b.cases, b.top.id⟩

/-- the builder once the drawing is as given; its scopes and open switches are the same, but for
the node that the innermost scope holds -/
def Builder.follow (b : Builder) (d : Drawing) : Builder :=
  { b with
    nodes := d.nodes
    edges := d.edges
    cases := d.cases
    counter := d.nodes.length
    lines := d.nodes.map fun n => (n.id, n.line)
    top := { b.top with id := d.parent } }

theorem Builder.follow_drawing {b : Builder} (h : b.Sound) : b.follow b.drawing = b := by
  show { b with counter := b.nodes.length, lines := b.nodes.map fun n => (n.id, n.line) } = b
  rw [← h.counter_eq, ← h.lines_eq]

theorem Builder.follow_follow (b : Builder) (d e : Drawing) :
    (b.follow d).follow e = b.follow e := rfl

theorem Builder.drawing_follow (b : Builder) (d : Drawing) : (b.follow d).drawing = d := rfl

theorem Builder.currentSwitch_follow (b : Builder) (d : Drawing) :
    (b.follow d).currentSwitch = b.currentSwitch := rfl

theorem Builder.Sound.nextId_drawing {b : Builder} (h : b.Sound) : b.drawing.nextId = b.nextId := by
  rw [Drawing.nextId, Builder.nextId, h.counter_eq]
  rfl

theorem Builder.sourceFor_eq (b : Builder) (k : Kind) :
    b.sourceFor k = b.drawing.source b.currentSwitch k := by
  cases k <;> rfl

theorem Builder.Sound.casesWith_eq {b : Builder} (h : b.Sound) (k : Kind) :
    b.casesWith k b.nextId = b.drawing.casesAfter b.currentSwitch k := by
  unfold Builder.casesWith Drawing.casesAfter
  rw [h.nextId_drawing]
  split
  · rw [if_pos rfl, Assoc.set_of_not_mem h.nextId_not_key]
    rfl
  · rename_i header hs
    rw [if_neg (by decide), if_pos rfl, hs]
    simp only [Option.some.injEq]
    rfl
  · rename_i hswitch hcase
    rw [if_neg hswitch]
    split
    · rename_i hk
      cases hs : b.currentSwitch with
      | some header => exact absurd hs (hcase header hk)
      | none => simp [Builder.drawing]
    · rfl

/-- what a statement draws -/
theorem Builder.Sound.draw_eq_follow {b : Builder} (h : b.Sound) (s : Statement)
    (hk : Kind.ofText s.text ≠ .handler) :
    b.draw (Kind.ofText s.text) s.text s.line
      = b.follow (b.drawing.hang b.currentSwitch s) := by
  have hlines : Assoc.set b.lines b.nextId (s.line : Int)
      = (b.drawing.hang b.currentSwitch s).nodes.map fun n => (n.id, n.line) := by
    rw [Assoc.set_of_not_mem h.nextId_not_line, h.lines_eq]
    simp only [Drawing.hang, List.map_append, List.map_singleton, h.nextId_drawing]
    rfl
  have hcount : b.counter + 1 = (b.drawing.hang b.currentSwitch s).nodes.length := by
    simp only [Drawing.hang, List.length_append, List.length_singleton, h.counter_eq]
    rfl
  rw [Builder.draw_eq, Builder.follow, ← hlines, ← hcount, Builder.sourceFor_eq, h.casesWith_eq,
    Kind.edgeStyle_eq, if_neg hk, Kind.edgeTag_eq]
  simp only [Drawing.hang, h.nextId_drawing]
  rfl

/-! ## one statement -/

theorem IsItemText.ordinary {t : Text} {n : Int} (h : IsItemText t n) (hn : 0 ≤ n) :
    IsOrdinary t := by
  refine ⟨h.declares, h.skipped, h.notBrace, ?_⟩
  have hhead : (t.head? == some '}') = false := beq_eq_false_iff_ne.2 h.notCloser
  have hneg : ¬ n < 0 := by omega
  simp [closesScope, hhead, h.balance, hneg]

theorem IsItemText.leaves {t : Text} {n : Int} (h : IsItemText t n) :
    (Kind.ofText t).leaves = none := by
  have ha := h.notAlternative
  have hh := h.notHandler
  cases hk : Kind.ofText t with
  | alternative => exact absurd hk ha
  | handler => exact absurd hk hh
  | _ => rfl

theorem ofSibling_of_balanced {t : Text} (h : braceBalance t = 0) :
    Placement.ofSibling t = .chain := by
  simp [Placement.ofSibling, opensScope, h]

theorem ofSibling_of_open {t : Text} (h : braceBalance t = 1) : Placement.ofSibling t = .nest := by
  simp [Placement.ofSibling, opensScope, h]

theorem ofHeader_of_empty {t : Text} (h : braceBalance t = 0) (hm : '{' ∈ t) :
    Placement.ofHeader t = .chain := by
  simp [Placement.ofHeader, hasEmptyBlock, h, hm]

theorem ofHeader_of_open {t : Text} (h : braceBalance t = 1) : Placement.ofHeader t = .nest := by
  simp [Placement.ofHeader, hasEmptyBlock, h]

theorem IsChain.placement {t : Text} (h : IsChain t) : (Kind.ofText t).placement t = .chain := by
  have hbal := h.text.balance
  rcases h.shape with hk | ⟨hk, hlast⟩ | ⟨hk, hbrace⟩
  · rw [hk]
    exact ofSibling_of_balanced hbal
  · rw [hk, Kind.placement, if_pos hlast]
  · have hempty := ofHeader_of_empty hbal hbrace
    simp only [headerKinds, List.mem_cons, List.not_mem_nil, or_false] at hk
    rcases hk with hk | hk | hk | hk | hk
    · rw [hk]
      exact hempty
    · rw [hk, Kind.placement, hempty, ite_self]
    · rw [hk]
      exact hempty
    · rw [hk]
      exact hempty
    · rw [hk]
      exact hempty

theorem IsOpener.placement {t : Text} (h : IsOpener t) : (Kind.ofText t).placement t = .nest := by
  have hheader := ofHeader_of_open h.text.balance
  have hsibling := ofSibling_of_open h.text.balance
  have hk := h.kind
  simp only [headerKinds, List.mem_cons, List.cons_append, List.nil_append, List.not_mem_nil,
    or_false] at hk
  rcases hk with hk | hk | hk | hk | hk | hk | hk
  · rw [hk]
    exact hheader
  · rw [hk, Kind.placement, h.brace, if_neg (by decide)]
    exact hheader
  · rw [hk]
    exact hheader
  · rw [hk]
    exact hheader
  · rw [hk]
    exact hheader
  · rw [hk]
    exact hsibling
  · rw [hk]
    exact hsibling

theorem Builder.feed_of_ordinary {b : Builder} {s : Statement} (hi : b.ignored = 0)
    (h : IsOrdinary s.text) : b.feed s = b.add (Kind.ofText s.text) s.text s.line := by
  rw [Builder.feed, Builder.braces_of_ordinary hi h]

/-- a statement that follows on nothing draws, and its node is put where its kind asks -/
theorem Builder.Sound.feed_item {b : Builder} (h : b.Sound) (hi : b.ignored = 0) {s : Statement}
    {n : Int} (hn : 0 ≤ n) (ht : IsItemText s.text n) :
    b.feed s = (b.follow (b.drawing.hang b.currentSwitch s)).settle (Kind.ofText s.text)
      ((Kind.ofText s.text).placement s.text) b.drawing.nextId := by
  rw [Builder.feed_of_ordinary hi (ht.ordinary hn), Builder.add,
    Builder.leaveFor_of_stays ht.leaves, h.draw_eq_follow s ht.notHandler, h.nextId_drawing]

theorem Builder.Sound.feed_chain {b : Builder} (h : b.Sound) (hi : b.ignored = 0) {s : Statement}
    (hs : IsItemText s.text 0) (hp : (Kind.ofText s.text).placement s.text = .chain) :
    b.feed s = b.follow ((b.drawing.hang b.currentSwitch s).under b.drawing.nextId) := by
  rw [h.feed_item hi (Int.le_refl 0) hs, hp, Builder.settle_chain]
  rfl

theorem IsLabel.placement {t : Text} (h : IsLabel t) : (Kind.ofText t).placement t = .chain := by
  rw [h.kind]
  exact ofSibling_of_balanced h.text.balance

theorem Builder.Sound.feed_jump {b : Builder} (h : b.Sound) (hi : b.ignored = 0) {s : Statement}
    (hs : IsJump s.text) : b.feed s = b.follow (b.drawing.hang b.currentSwitch s) := by
  rw [h.feed_item hi (Int.le_refl 0) hs.text, hs.kind, Kind.placement, Builder.settle_stay]

/-- the state inside a block, just behind its opening statement, which everything hangs on -/
structure Builder.Inside (b : Builder) (s : Statement) (b' : Builder) : Prop where
  ignored : b'.ignored = 0
  notices : b'.notices = b.notices
  drawing : b'.drawing = (b.drawing.hang b.currentSwitch s).under b.drawing.nextId
  currentSwitch : b'.currentSwitch
    = if Kind.ofText s.text = .switch then some b.drawing.nextId else b.currentSwitch
  outer : b'.outer = b.top :: b.outer
  switchesOutside : b'.switchesOutside = b.switches

theorem Builder.Sound.feed_opener {b : Builder} (h : b.Sound) (hi : b.ignored = 0)
    {s : Statement} (hs : IsOpener s.text) : b.Inside s (b.feed s) := by
  have hfeed := h.feed_item hi (by decide) hs.text
  rw [hs.placement, Builder.settle_nest] at hfeed
  have hle : ∀ sw ∈ b.switches, sw.depth < b.depth + 1 := fun sw hsw =>
    Nat.lt_succ_of_le (h.nested.depth_le sw hsw)
  rw [hfeed]
  refine ⟨hi, rfl, rfl, ?_, rfl, ?_⟩
  · rw [Builder.currentSwitch]
    split <;> rfl
  · by_cases hk : Kind.ofText s.text = .switch
    · simp only [hk, if_pos]
      rw [Builder.switchesOutside]
      exact if_pos rfl
    · simp only [if_neg hk]
      exact Builder.switchesOutside_of_lt hle

theorem IsCloser.facts {t : Text} (h : IsCloser t) : declares t = false ∧ isSkipped t = false ∧
    t ≠ ['{'] ∧ closesScope t = true ∧ (afterClosers t).isEmpty = true := by
  rcases h with rfl | rfl <;> decide

theorem Builder.feed_closer {b : Builder} {s : Statement} (hi : b.ignored = 0)
    (h : IsCloser s.text) : b.feed s = b.pop := by
  obtain ⟨hd, hs, hn, hc, ha⟩ := h.facts
  simp [Builder.feed, Builder.braces, hd, hs, hn, hc, ha, hi]

/-! ## all statements -/

/-- leaving a block brings back the node that its opening statement hung on -/
theorem Builder.Inside.pop_follow {b b' : Builder} {s : Statement} (h : b.Inside s b')
    (hi : b.ignored = 0) (d : Drawing) : (b'.follow d).pop = b.follow (d.under b.top.id) := by
  have ho : (b'.follow d).outer = b.top :: b.outer := h.outer
  rw [Builder.pop_of_outer ho]
  simp only [Builder.follow, Drawing.under]
  rw [← h.notices, h.ignored, ← hi, ← h.switchesOutside]
  rfl

mutual

theorem Item.feedAll_statements (i : Item) {b : Builder} (h : b.Sound) (hi : b.ignored = 0) :
    b.feedAll i.statements = b.follow (i.draw b.currentSwitch b.drawing) := by
  match i with
  | .chain s hs => exact h.feed_chain hi hs.text hs.placement
  | .jump s hs => exact h.feed_jump hi hs
  | .label s hs => exact h.feed_chain hi hs.text hs.placement
  | .block opener ho body closer hc =>
    have hin := h.feed_opener hi ho
    have hbody := feedAll_itemStatements body (h.feed opener) hin.ignored
    rw [hin.currentSwitch, hin.drawing] at hbody
    have hclose : ∀ d, ((b.feed opener).follow d).feed closer = b.follow (d.under b.top.id) := by
      intro d
      have hd : ((b.feed opener).follow d).ignored = 0 := hin.ignored
      rw [Builder.feed_closer hd hc]
      exact hin.pop_follow hi d
    show b.feedAll (opener :: (itemStatements body ++ [closer])) = _
    rw [Builder.feedAll_cons, Builder.feedAll_append, hbody]
    exact hclose _

theorem feedAll_itemStatements (items : List Item) {b : Builder} (h : b.Sound)
    (hi : b.ignored = 0) :
    b.feedAll (itemStatements items) = b.follow (drawItems b.currentSwitch b.drawing items) := by
  match items with
  | [] => exact (Builder.follow_drawing h).symm
  | i :: rest =>
    have hhead := i.feedAll_statements h hi
    have hsound := h.feedAll i.statements
    rw [hhead] at hsound
    show b.feedAll (i.statements ++ itemStatements rest) = _
    rw [Builder.feedAll_append, hhead, feedAll_itemStatements rest hsound hi,
      Builder.follow_follow, Builder.drawing_follow, Builder.currentSwitch_follow]
    rfl

end

/-- **the stacks of the builder come to the recursive reading**: from every state that calls lead to
and in which nothing is ignored, items are drawn as they are read without a stack, and scopes, open
switches and notices are as before, but for the node that the innermost scope holds; so a source
text that consists of items has the chart that the reading draws -/
theorem feedAll_items :
    (∀ (b : Builder) (items : List Item), b.Reachable → b.ignored = 0 →
      b.feedAll (itemStatements items) = b.follow (drawItems b.currentSwitch b.drawing items)) ∧
    ∀ (src : Text) (items : List Item), statements src = itemStatements items →
      Builder.ofSource src = Builder.fresh.follow (drawItems none .empty items) := by
  constructor
  · intro b items hb hi
    exact feedAll_itemStatements items hb.sound hi
  · intro src items hsrc
    show (Builder.fresh.feedAll (statements src)).finish = _
    rw [hsrc, feedAll_itemStatements items .fresh rfl]
    rfl

/-- a switch with a loop in its first case, and a statement after it -/
def switchItems : List Item := [
  .block ⟨"switch (n) \x7b".toList, 1⟩ (by decide +kernel) [
    .label ⟨"case 1:".toList, 2⟩ (by decide +kernel),
    .block ⟨"while (x) \x7b".toList, 3⟩ (by decide +kernel)
      [.chain ⟨"a();".toList, 4⟩ (by decide +kernel),
        .jump ⟨"break;".toList, 5⟩ (by decide +kernel)]
      ⟨['}'], 6⟩ (by decide +kernel),
    .label ⟨"default:".toList, 7⟩ (by decide +kernel)] ⟨['}'], 8⟩ (by decide +kernel),
  .chain ⟨"b();".toList, 9⟩ (by decide +kernel)]

def switchSource : Text :=
  "switch (n) \x7b\ncase 1:\nwhile (x) \x7b\na();\nbreak;\n\x7d\ndefault:\n\x7d\nb();".toList

/-- a function that is still open -/
def openFunction : Builder := Builder.fresh.performAll [.run "f(x) \x7b".toList]

theorem feedAll_switchItems :
    (openFunction.Reachable ∧ openFunction.ignored = 0 ∧
      openFunction.feedAll (itemStatements switchItems) = openFunction.follow
        (drawItems openFunction.currentSwitch openFunction.drawing switchItems)) ∧
    statements switchSource = itemStatements switchItems ∧
    Builder.ofSource switchSource = Builder.fresh.follow (drawItems none .empty switchItems) := by
  have hb : openFunction.Reachable := ⟨_, rfl⟩
  have hi : openFunction.ignored = 0 := by decide +kernel
  have hsrc : statements switchSource = itemStatements switchItems := by decide +kernel
  exact ⟨⟨hb, hi, feedAll_items.1 _ switchItems hb hi⟩, hsrc, feedAll_items.2 _ _ hsrc⟩

end CodeChart
