import CodeChart.Proofs.Builder.CaseRecord
import CodeChart.Proofs.Source.Jump

/-!
# A builder on bare stacks

A builder has an innermost scope at all times and decides about a kind by itself.  On bare stacks
nothing of this is given: the nodes and the kinds of the scopes are popped and looked at one by one,
what to do with a kind is looked up in a table, the record of a switch in the records, and all of
this has no answer where nothing is there.  It always is: a source text, and any calls in any order,
are worked through to the end, with the result of the builder.

* `StackBuilder`        the state, and the operations that can fail, with a question mark;
* `StackBuilder.run?`, `StackBuilder.performAll?`   a source text, some calls;
* `Builder.onStacks`    a builder on bare stacks; `onStacks_pop`, `onStacks_add`, `onStacks_braces`
                        and `onStacks_feed` say that no step fails on it;
* `nothing_missing`     all that is read and built on the way from a source text is there.
-/

namespace CodeChart

/-! ## the state -/

/-- `ids` and `kinds` hold the scopes, innermost first -/
structure StackBuilder where
  nodes : List Node
  edges : List Edge
  ids : List NodeId
  kinds : List (Option Kind)
  switches : List SwitchScope
  ignored : Nat
  counter : Nat
  lines : List (NodeId × Int)
  cases : List (NodeId × List NodeId)
  notices : List BuilderNotice

namespace StackBuilder

def fresh : StackBuilder := ⟨[], [], [.start], [none], [], 0, 0, [], [], []⟩

def nextId (b : StackBuilder) : NodeId := .node b.counter

def currentSwitch (b : StackBuilder) : Option NodeId := b.switches.head?.map SwitchScope.header

/-! ## the stacks -/

def parent? (b : StackBuilder) : Option NodeId := b.ids.head?

def innermostKind? (b : StackBuilder) : Option (Option Kind) := b.kinds.head?

def replaceTop? (b : StackBuilder) (id : NodeId) : Option StackBuilder :=
  b.ids.tail?.map fun outer => { b with ids := id :: outer }

def switchesOutside (b : StackBuilder) : List SwitchScope :=
  match b.switches with
  | [] => []
  | sw :: more => if sw.depth = b.ids.length then more else sw :: more

/-- both stacks are popped, if the one of the nodes is higher than its bottom -/
def pop? (b : StackBuilder) : Option StackBuilder :=
  if b.ids.length ≤ 1 then some b
  else b.kinds.tail?.bind fun kinds => b.ids.tail?.map fun ids =>
    { b with ids := ids, kinds := kinds, switches := b.switchesOutside }

def place? (b : StackBuilder) (p : Placement) (id : NodeId) (kind : Option Kind) :
    Option StackBuilder :=
  match p with
  | .nest => some { b with ids := id :: b.ids, kinds := kind :: b.kinds }
  | .chain => b.replaceTop? id
  | .stay => some b

/-! ## a statement -/

def leaveFor? (b : StackBuilder) (k : Kind) : Option StackBuilder :=
  match k.leaves with
  | none => some b
  | some left => b.innermostKind?.bind fun kind => if kind = some left then b.pop? else some b

def sourceFor? (b : StackBuilder) (k : Kind) : Option NodeId :=
  match k, b.currentSwitch with
  | .caseLabel, some header => some header
  | _, _ => b.parent?

/-- a case goes into the record of its switch, which is looked up -/
def casesWith? (b : StackBuilder) (k : Kind) (id : NodeId) :
    Option (List (NodeId × List NodeId)) :=
  match k, b.currentSwitch with
  | .switch, _ => some (Assoc.set b.cases id [])
  | .caseLabel, some header =>
    (b.cases.lookup header).map fun filed => Assoc.set b.cases header (filed ++ [id])
  | _, _ => some b.cases

def draw? (b : StackBuilder) (k : Kind) (t : Text) (line : Int) : Option StackBuilder :=
  (b.sourceFor? k).bind fun source => (b.casesWith? k b.nextId).map fun cases => { b with
    nodes := b.nodes ++ [⟨b.nextId, k.label t, k.category t, some k, line⟩]
    edges := b.edges ++ [⟨source, b.nextId, k.edgeStyle, k.edgeTag t⟩]
    counter := b.counter + 1
    lines := Assoc.set b.lines b.nextId line
    cases := cases }

def enterSwitch (b : StackBuilder) (k : Kind) (p : Placement) (id : NodeId) : StackBuilder :=
  if k = .switch ∧ p = .nest then { b with switches := ⟨id, b.ids.length⟩ :: b.switches } else b

def settle? (b : StackBuilder) (k : Kind) (p : Placement) (id : NodeId) : Option StackBuilder :=
  (b.place? p id (some k)).map fun placed => placed.enterSwitch k p id

def add? (b : StackBuilder) (k : Kind) (t : Text) (line : Int) : Option StackBuilder :=
  (b.leaveFor? k).bind fun left => (left.draw? k t line).bind fun drawn =>
    drawn.settle? k (k.placement t) left.nextId

def braces? (b : StackBuilder) (t : Text) : Option (StackBuilder × Option Text) :=
  if declares t then
    some (if opensScope t then { b with ignored := b.ignored + 1 } else b, none)
  else if isSkipped t then some (b, none)
  else if b.ignored > 0 then
    some ({ b with ignored := ((b.ignored : Int) + braceBalance t).toNat }, none)
  else if t = ['{'] then some (b, none)
  else if closesScope t then
    b.pop?.map fun left => (left, if (afterClosers t).isEmpty then none else some (afterClosers t))
  else some (b, some t)

/-! ## a source text, and calls -/

/-- what to do with a statement of a kind -/
def handlers : List (Kind × (StackBuilder → Text → Int → Option StackBuilder)) :=
  Kind.all.map fun k => (k, fun b t line => b.add? k t line)

def feed? (b : StackBuilder) (s : Statement) : Option StackBuilder :=
  (b.braces? s.text).bind fun (left, text) =>
    match text with
    | none => some left
    | some t => (handlers.lookup (Kind.ofText t)).bind fun handler => handler left t s.line

def feedAll? (b : StackBuilder) (ss : List Statement) : Option StackBuilder := ss.foldlM feed? b

def finish (b : StackBuilder) : StackBuilder :=
  if b.ids.length ≤ 1 ∧ b.ignored = 0 then b
  else { b with notices := b.notices ++ [.unfinished (b.ids.length - 1) b.ignored] }

def run? (b : StackBuilder) (src : Text) : Option StackBuilder :=
  (statements? src).bind fun ss => (b.feedAll? ss).map finish

def perform? (b : StackBuilder) : Builder.Call → Option StackBuilder
  | .braces t => (b.braces? t).map Prod.fst
  | .add k t line => b.add? k t line
  | .run src => b.run? src

def performAll? (b : StackBuilder) (calls : List Builder.Call) : Option StackBuilder :=
  calls.foldlM perform? b

end StackBuilder

/-! ## a builder on bare stacks -/

namespace Builder

def onStacks (b : Builder) : StackBuilder where
  nodes := b.nodes
  edges := b.edges
  ids := b.top.id :: b.outer.map Scope.id
  kinds := b.top.kind :: b.outer.map Scope.kind
  switches := b.switches
  ignored := b.ignored
  counter := b.counter
  lines := b.lines
  cases := b.cases
  notices := b.notices

theorem length_ids_onStacks (b : Builder) : b.onStacks.ids.length = b.depth := by
  show (b.outer.map Scope.id).length + 1 = b.outer.length + 1
  rw [List.length_map]

theorem onStacks_pop (b : Builder) : b.onStacks.pop? = some b.pop.onStacks := by
  rw [StackBuilder.pop?, length_ids_onStacks]
  rcases b.pop_cases with ⟨houter, hpop⟩ | ⟨s, rest, houter, hpop⟩
  · have hbottom : b.depth ≤ 1 := by
      rw [Builder.depth, houter]
      exact Nat.le_refl 1
    rw [if_pos hbottom, hpop]
  · have hdepth : ¬ b.depth ≤ 1 := by
      rw [Builder.depth, houter, List.length_cons]
      omega
    have hkinds : b.onStacks.kinds.tail? = some (s.kind :: rest.map Scope.kind) := by
      show some (b.outer.map Scope.kind) = _
      rw [houter]
      rfl
    have hids : b.onStacks.ids.tail? = some (s.id :: rest.map Scope.id) := by
      show some (b.outer.map Scope.id) = _
      rw [houter]
      rfl
    have houtside : b.onStacks.switchesOutside = b.switchesOutside := by
      unfold StackBuilder.switchesOutside Builder.switchesOutside
      rw [length_ids_onStacks]
      rfl
    rw [if_neg hdepth, hkinds, hids, houtside, hpop]
    rfl

theorem onStacks_leaveFor (b : Builder) (k : Kind) :
    b.onStacks.leaveFor? k = some (b.leaveFor k).onStacks := by
  unfold StackBuilder.leaveFor?
  split
  · rename_i hleaves
    rw [Builder.leaveFor_of_stays hleaves]
  · rename_i left hleaves
    have hkind : b.onStacks.innermostKind? = some b.top.kind := rfl
    rw [hkind, Option.bind_some, Builder.leaveFor, hleaves]
    by_cases h : b.top.kind = some left
    · rw [if_pos h, if_pos ⟨rfl, h⟩]
      exact b.onStacks_pop
    · rw [if_neg h, if_neg fun hleft => h hleft.2]

theorem onStacks_sourceFor (b : Builder) (k : Kind) :
    b.onStacks.sourceFor? k = some (b.sourceFor k) := by
  have hcurrent : b.onStacks.currentSwitch = b.currentSwitch := rfl
  have hparent : b.onStacks.parent? = some b.top.id := rfl
  unfold StackBuilder.sourceFor?
  rw [hcurrent, hparent]
  cases k with
  | caseLabel =>
    rw [Builder.sourceFor]
    cases b.currentSwitch with
    | none => rfl
    | some header => rfl
  | _ => rfl

theorem onStacks_settle (b : Builder) (k : Kind) (p : Placement) (id : NodeId) :
    b.onStacks.settle? k p id = some (b.settle k p id).onStacks := by
  have hplace : b.onStacks.place? p id (some k) = some (b.place p id (some k)).onStacks := by
    cases p with
    | nest => rfl
    | chain => rfl
    | stay => rfl
  rw [StackBuilder.settle?, hplace, Option.map_some, Builder.settle, StackBuilder.enterSwitch,
    Builder.enterSwitch, length_ids_onStacks]
  split
  · rfl
  · rfl

end Builder

/-! ## the record of a switch -/

theorem Assoc.set_of_lookup {m : List (NodeId × List NodeId)} {key : NodeId} {v : List NodeId}
    (hm : (m.map Prod.fst).Nodup) (h : m.lookup key = some v) (id : NodeId) :
    Assoc.set m key (v ++ [id]) = m.map fun e => if e.1 = key then (e.1, e.2 ++ [id]) else e := by
  induction m with
  | nil => cases h
  | cons e rest ih =>
    obtain ⟨first, w⟩ := e
    obtain ⟨hfirst, hrest⟩ := List.nodup_cons.1 hm
    rw [Assoc.set, List.map_cons]
    by_cases he : first = key
    · subst he
      have hsame : ∀ e ∈ rest, (if e.1 = first then (e.1, e.2 ++ [id]) else e) = e := by
        intro e hmem
        rw [if_neg]
        intro heq
        exact hfirst (List.mem_map.2 ⟨e, hmem, heq⟩)
      rw [List.lookup_cons_self, Option.some.injEq] at h
      rw [if_pos rfl, if_pos rfl, List.map_congr_left hsame, List.map_id', h]
    · rw [List.lookup_cons, beq_eq_false_iff_ne.2 (Ne.symm he)] at h
      rw [if_neg he, if_neg he, ih hrest h]

namespace Builder.Sound

variable {b : Builder}

theorem nodup_keys (h : b.Sound) : (b.cases.map Prod.fst).Nodup := by
  have hids : (b.nodes.map Node.id).Nodup := by
    rw [h.ids_eq]
    exact List.nodup_range.map fun _ _ => NodeId.node.inj
  rw [h.keys_eq]
  exact hids.sublist (List.filter_sublist.map _)

/-- the record of the current switch is found -/
theorem exists_lookup (h : b.Sound) {header : NodeId} (hs : b.currentSwitch = some header) :
    ∃ filed, b.cases.lookup header = some filed := by
  obtain ⟨ids, hids⟩ := h.exists_record hs
  exact Option.isSome_iff_exists.1 (List.lookup_isSome_iff.2 ⟨_, hids, beq_self_eq_true header⟩)

theorem onStacks_casesWith (h : b.Sound) (k : Kind) (id : NodeId) :
    b.onStacks.casesWith? k id = some (b.casesWith k id) := by
  have hcurrent : b.onStacks.currentSwitch = b.currentSwitch := rfl
  unfold StackBuilder.casesWith? Builder.casesWith
  rw [hcurrent]
  cases k with
  | caseLabel =>
    cases hs : b.currentSwitch with
    | none => rfl
    | some header =>
      obtain ⟨filed, hfiled⟩ := h.exists_lookup hs
      have hlookup : b.onStacks.cases.lookup header = some filed := hfiled
      have hset := Assoc.set_of_lookup h.nodup_keys hfiled id
      simp only [hlookup, Option.map_some, ← hset]
      rfl
  | _ => rfl

theorem onStacks_draw (h : b.Sound) (k : Kind) (t : Text) (line : Int) :
    b.onStacks.draw? k t line = some (b.draw k t line).onStacks := by
  have hcases : b.onStacks.casesWith? k b.onStacks.nextId = some (b.casesWith k b.nextId) :=
    h.onStacks_casesWith k b.nextId
  rw [StackBuilder.draw?, b.onStacks_sourceFor, Option.bind_some, hcases, Builder.draw_eq]
  rfl

theorem onStacks_add (h : b.Sound) (k : Kind) (t : Text) (line : Int) :
    b.onStacks.add? k t line = some (b.add k t line).onStacks := by
  rw [StackBuilder.add?, b.onStacks_leaveFor, Option.bind_some, (h.leaveFor k).onStacks_draw,
    Option.bind_some]
  exact ((b.leaveFor k).draw k t line).onStacks_settle k (k.placement t) (b.leaveFor k).nextId

end Builder.Sound

/-! ## a source text, and calls -/

namespace Builder

theorem onStacks_braces (b : Builder) (t : Text) :
    b.onStacks.braces? t = some ((b.braces t).1.onStacks, (b.braces t).2) := by
  have hignored : b.onStacks.ignored = b.ignored := rfl
  simp only [StackBuilder.braces?, Builder.braces, hignored, onStacks_pop]
  by_cases hdeclares : declares t = true
  · rw [if_pos hdeclares, if_pos hdeclares]
    split
    · rfl
    · rfl
  rw [if_neg hdeclares, if_neg hdeclares]
  by_cases hskipped : isSkipped t = true
  · rw [if_pos hskipped, if_pos hskipped]
  rw [if_neg hskipped, if_neg hskipped]
  by_cases hinside : b.ignored > 0
  · rw [if_pos hinside, if_pos hinside]
    rfl
  rw [if_neg hinside, if_neg hinside]
  by_cases hbrace : t = ['{']
  · rw [if_pos hbrace, if_pos hbrace]
  rw [if_neg hbrace, if_neg hbrace]
  by_cases hcloses : closesScope t = true
  · rw [if_pos hcloses, if_pos hcloses]
    rfl
  · rw [if_neg hcloses, if_neg hcloses]

end Builder

theorem StackBuilder.lookup_handlers (k : Kind) :
    StackBuilder.handlers.lookup k = some fun b t line => b.add? k t line := by
  cases k <;> rfl

namespace Builder.Sound

variable {b : Builder}

theorem onStacks_feed (h : b.Sound) (s : Statement) :
    b.onStacks.feed? s = some (b.feed s).onStacks := by
  have hbraces := Builder.braces_induction (P := Builder.Sound) (fun _ n hb => hb.ignore n)
    (fun _ hb => hb.pop) h s.text
  rw [StackBuilder.feed?, b.onStacks_braces, Option.bind_some]
  rcases b.feed_cases s with ⟨c, hc, hfeed⟩ | ⟨c, t, hc, hfeed⟩
  · rw [hc, hfeed]
  · rw [hc] at hbraces
    rw [hc, hfeed]
    simp only [StackBuilder.lookup_handlers, Option.bind_some]
    exact hbraces.onStacks_add (Kind.ofText t) t s.line

theorem onStacks_feedAll (h : b.Sound) (ss : List Statement) :
    b.onStacks.feedAll? ss = some (b.feedAll ss).onStacks := by
  induction ss generalizing b with
  | nil => rfl
  | cons s ss ih =>
    rw [StackBuilder.feedAll?, List.foldlM_cons, h.onStacks_feed]
    exact ih (h.feed s)

end Builder.Sound

theorem Builder.onStacks_finish (b : Builder) : b.onStacks.finish = b.finish.onStacks := by
  have hbottom : b.depth ≤ 1 ↔ b.outer.isEmpty = true := by
    rw [Builder.depth, List.isEmpty_iff, ← List.length_eq_zero_iff]
    omega
  have hignored : b.onStacks.ignored = b.ignored := rfl
  rw [StackBuilder.finish, Builder.finish, length_ids_onStacks, hignored]
  by_cases h : b.outer.isEmpty = true ∧ b.ignored = 0
  · rw [if_pos h, if_pos ⟨hbottom.2 h.1, h.2⟩]
  · rw [if_neg h, if_neg fun hend => h ⟨hbottom.1 hend.1, hend.2⟩]
    rfl

namespace Builder.Sound

variable {b : Builder}

theorem onStacks_run (h : b.Sound) (src : Text) :
    b.onStacks.run? src = some (b.run src).onStacks := by
  rw [StackBuilder.run?, statements?_eq, Option.bind_some, h.onStacks_feedAll, Option.map_some,
    Builder.onStacks_finish, Builder.run]

theorem onStacks_perform (h : b.Sound) (call : Builder.Call) :
    b.onStacks.perform? call = some (b.perform call).onStacks := by
  cases call with
  | braces t =>
    rw [StackBuilder.perform?, b.onStacks_braces]
    rfl
  | add k t line => exact h.onStacks_add k t line
  | run src => exact h.onStacks_run src

theorem onStacks_performAll (h : b.Sound) (calls : List Builder.Call) :
    b.onStacks.performAll? calls = some (b.performAll calls).onStacks := by
  induction calls generalizing b with
  | nil => rfl
  | cons call calls ih =>
    rw [StackBuilder.performAll?, List.foldlM_cons, h.onStacks_perform]
    exact ih (h.performAll [call])

end Builder.Sound

/-- **nothing is missing** where something is looked for: headers are peeled off ever shorter texts,
each with its parenthesis, a line is cut with jumps to what was seen ahead, and on bare stacks every
source text and all calls give the chart -/
theorem nothing_missing :
    (∀ t body, IsBehindHeader t body →
      body.length < t.length ∧ ∃ header, peelHeaders t = header :: peelHeaders body) ∧
    (∀ t, (∀ body, ¬ IsBehindHeader t body) → peelHeaders t = [t]) ∧
    (∀ t, peelHeaders? t = some (peelHeaders t)) ∧
    (∀ line, splitLine? line = some (splitLine line)) ∧
    (∀ src, StackBuilder.fresh.run? src = some (Builder.ofSource src).onStacks) ∧
    ∀ calls, StackBuilder.fresh.performAll? calls
      = some (Builder.fresh.performAll calls).onStacks :=
  ⟨fun _ _ h => ⟨h.length_lt, h.peelHeaders_eq⟩, fun _ h => peelHeaders_of_not_behind h,
    peelHeaders?_eq, splitLine?_eq, fun src => Builder.Sound.fresh.onStacks_run src,
    fun calls => Builder.Sound.fresh.onStacks_performAll calls⟩

end CodeChart
