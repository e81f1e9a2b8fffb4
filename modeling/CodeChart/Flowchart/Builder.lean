import CodeChart.Assoc
import CodeChart.Flowchart.Basic
import CodeChart.Flowchart.Label
import CodeChart.Notice
import CodeChart.Source.Statement

/-!
# Building a flowchart

Statements are taken one at a time.  Every open scope holds the node that the next statement in
it is attached to; at the bottom this is the start node.  A plain statement takes the place of
the innermost node, so that siblings form a chain, and a control header opens a scope that its
closing brace leaves again.  Unbalanced braces do no harm: the bottom scope is never left.

* `Builder`          the chart so far and the open scopes;
* `Builder.braces`   what the braces of a statement do, and the text that is left of it;
* `Builder.add`      a statement of a given kind;
* `Builder.feed`, `Builder.run`   a statement, a source text;
* `Flowchart.ofSource`   the flowchart of a source text.
-/

namespace CodeChart

/-! ## the state -/

/-- the node to attach to, and the kind of the statement that opened the scope -/
structure Scope where
  id : NodeId
  kind : Option Kind
  deriving DecidableEq, Repr

/-- an open switch: its header and the number of scopes once it was opened -/
structure SwitchScope where
  header : NodeId
  depth : Nat
  deriving DecidableEq, Repr

inductive BuilderNotice where
  /-- an edge was asked for whose end is missing -/
  | danglingEdge (source target : Option NodeId)
  /-- the text ended inside scopes or declarations -/
  | unfinished (scopes ignored : Nat)
  deriving DecidableEq, Repr

/-- `outer` holds the scopes around `top` and `switches` the open switches, innermost first;
`counter` numbers the next node, `lines` gives the line of every node and `cases` the case labels
of every switch -/
structure Builder where
  nodes : List Node
  edges : List Edge
  top : Scope
  outer : List Scope
  switches : List SwitchScope
  ignored : Nat
  counter : Nat
  lines : List (NodeId × Int)
  cases : List (NodeId × List NodeId)
  notices : List BuilderNotice
  deriving DecidableEq, Repr

def Builder.fresh : Builder := ⟨[], [], ⟨.start, none⟩, [], [], 0, 0, [], [], []⟩

def Builder.scopes (b : Builder) : List Scope := (b.top :: b.outer).reverse

def Builder.scopeIds (b : Builder) : List NodeId := b.scopes.map Scope.id

def Builder.scopeKinds (b : Builder) : List (Option Kind) := b.scopes.map Scope.kind

def Builder.depth (b : Builder) : Nat := b.outer.length + 1

def Builder.currentSwitch (b : Builder) : Option NodeId := b.switches.head?.map SwitchScope.header

def Builder.nextId (b : Builder) : NodeId := .node b.counter

def Builder.chart (b : Builder) : Flowchart := ⟨b.nodes, b.edges⟩

theorem Builder.length_scopes (b : Builder) : b.scopes.length = b.depth := by
  simp [Builder.scopes, Builder.depth]

/-! ## wording -/

def nameOrNone (id : Option NodeId) : Text :=
  match id with
  | some id => id.name
  | none => "None".toList

def BuilderNotice.notice : BuilderNotice → Notice
  | .danglingEdge source target =>
    ⟨.error, "Attempting to add edge with None: ".toList ++ nameOrNone source
      ++ " -> ".toList ++ nameOrNone target⟩
  | .unfinished scopes ignored =>
    ⟨.debug, "Input ended with ".toList ++ decimal scopes
      ++ " open scope(s) and ignore depth ".toList ++ decimal ignored⟩

/-! ## nodes and edges -/

def Builder.addNode (b : Builder) (label : Text) (category : Category) (kind : Option Kind)
    (line : Int) : Builder :=
  { b with
    nodes := b.nodes ++ [⟨b.nextId, label, category, kind, line⟩]
    counter := b.counter + 1
    lines := Assoc.set b.lines b.nextId line }

def Builder.addEdge (b : Builder) (e : Edge) : Builder := { b with edges := b.edges ++ [e] }

/-- an edge between two ends that may be missing; then nothing is added -/
def Builder.connect (b : Builder) (source target : Option NodeId) (style : EdgeStyle)
    (tag : Option Text) : Builder :=
  match source, target with
  | some s, some t => b.addEdge ⟨s, t, style, tag⟩
  | _, _ => { b with notices := b.notices ++ [.danglingEdge source target] }

/-! ## scopes -/

def Builder.push (b : Builder) (s : Scope) : Builder :=
  { b with top := s, outer := b.top :: b.outer }

/-- the switches that are still open outside the innermost scope -/
def Builder.switchesOutside (b : Builder) : List SwitchScope :=
  match b.switches with
  | [] => []
  | sw :: more => if sw.depth = b.depth then more else sw :: more

/-- leaves the innermost scope, and the switch that it is the scope of; the bottom one stays -/
def Builder.pop (b : Builder) : Builder :=
  match b.outer with
  | [] => b
  | s :: rest => { b with top := s, outer := rest, switches := b.switchesOutside }

def Builder.popped? (b : Builder) : Option NodeId :=
  if b.outer.isEmpty then none else some b.top.id

def Builder.replaceTop (b : Builder) (id : NodeId) : Builder :=
  { b with top := { b.top with id := id } }

theorem Builder.pop_of_bottom {b : Builder} (h : b.outer = []) : b.pop = b := by
  simp [Builder.pop, h]

theorem Builder.outer_pop (b : Builder) : b.pop.outer = b.outer.tail := by
  unfold Builder.pop
  split
  · rename_i h
    simp [h]
  · rename_i h
    simp [h]

theorem Builder.nodes_pop (b : Builder) : b.pop.nodes = b.nodes := by
  unfold Builder.pop
  split <;> rfl

theorem Builder.edges_pop (b : Builder) : b.pop.edges = b.edges := by
  unfold Builder.pop
  split <;> rfl

theorem Builder.switchesOutside_of_lt {b : Builder} (h : ∀ sw ∈ b.switches, sw.depth < b.depth) :
    b.switchesOutside = b.switches := by
  unfold Builder.switchesOutside
  split
  · rename_i hs
    exact hs.symm
  · rename_i sw more hs
    have hd : sw.depth < b.depth := h sw (by rw [hs]; exact List.mem_cons_self)
    rw [if_neg (by omega), hs]

theorem Builder.mem_of_mem_switchesOutside {b : Builder} {sw : SwitchScope}
    (h : sw ∈ b.switchesOutside) : sw ∈ b.switches := by
  unfold Builder.switchesOutside at h
  split at h
  · cases h
  · rename_i hs
    rw [hs]
    split at h
    · exact List.mem_cons_of_mem _ h
    · exact h

theorem Builder.pop_push (b : Builder) (s : Scope)
    (h : ∀ sw ∈ b.switches, sw.depth ≤ b.depth) : (b.push s).pop = b := by
  have hs : (b.push s).switchesOutside = b.switches :=
    Builder.switchesOutside_of_lt fun sw hsw => Nat.lt_succ_of_le (h sw hsw)
  show { b.push s with top := b.top, outer := b.outer, switches := (b.push s).switchesOutside } = b
  rw [hs]
  rfl

/-! ## where a node is put -/

inductive Placement where
  /-- the node opens a scope -/
  | nest
  /-- the node takes the place of the innermost one -/
  | chain
  /-- the innermost node stays -/
  | stay
  deriving DecidableEq, Repr

/-- a header opens a scope unless its block is already closed -/
def Placement.ofHeader (t : Text) : Placement := if hasEmptyBlock t then .chain else .nest

/-- a sibling opens a scope only if a block is left open -/
def Placement.ofSibling (t : Text) : Placement := if opensScope t then .nest else .chain

def Builder.place (b : Builder) (p : Placement) (id : NodeId) (kind : Option Kind) : Builder :=
  match p with
  | .nest => b.push ⟨id, kind⟩
  | .chain => b.replaceTop id
  | .stay => b

/-! ## what the kind of a statement decides -/

def Kind.label (k : Kind) (t : Text) : Text :=
  match k with
  | .conditional => condition "if".toList t ++ " ?".toList
  | .alternative => "else".toList
  | .switch => "Switch: ".toList ++ condition "switch".toList t
  | .caseLabel =>
    if "default".toList.isPrefixOf t then "Default".toList
    else trim ("Case ".toList ++ caseValue t)
  | .loop => loopWord t ++ ": ".toList ++ condition (loopWord t) t
  | .doLoop => "DO loop start".toList
  | .tryBlock => "TRY Block".toList
  | .handler => "CATCH: ".toList ++ condition "catch".toList t
  | .jump => t
  | .plain => t

def Kind.category (k : Kind) (t : Text) : Category :=
  match k with
  | .conditional | .caseLabel | .loop | .doLoop => .decision
  | .alternative => .standard
  | .switch => .switchHeader
  | .tryBlock | .handler => .exceptionBlock
  | .jump => .terminator
  | .plain => if t.contains '(' then .process else .standard

def Kind.placement (k : Kind) (t : Text) : Placement :=
  match k with
  | .conditional | .alternative | .switch | .doLoop | .tryBlock | .handler => .ofHeader t
  | .loop => if t.getLast? = some ';' then .chain else .ofHeader t
  | .caseLabel | .plain => .ofSibling t
  | .jump => .stay

/-- the kind of the scope that a statement leaves first, if it is the innermost one -/
def Kind.leaves : Kind → Option Kind
  | .alternative => some .conditional
  | .handler => some .tryBlock
  | _ => none

def Kind.edgeStyle : Kind → EdgeStyle
  | .handler => .dashed
  | _ => .solid

def Kind.edgeTag (k : Kind) (t : Text) : Option Text :=
  match k with
  | .caseLabel => some (k.label t)
  | _ => none

/-! ## one statement -/

/-- leaves a scope without braces that the statement belongs after -/
def Builder.leaveFor (b : Builder) (k : Kind) : Builder :=
  if k.leaves.isSome ∧ b.top.kind = k.leaves then b.pop else b

/-- a case label hangs on the innermost switch, everything else on the innermost node -/
def Builder.sourceFor (b : Builder) (k : Kind) : NodeId :=
  match k with
  | .caseLabel => b.currentSwitch.getD b.top.id
  | _ => b.top.id

/-- the case labels of every switch after a new switch, or a new case of the innermost switch -/
def Builder.casesWith (b : Builder) (k : Kind) (id : NodeId) : List (NodeId × List NodeId) :=
  match k, b.currentSwitch with
  | .switch, _ => Assoc.set b.cases id []
  | .caseLabel, some header =>
    b.cases.map fun e => if e.1 = header then (e.1, e.2 ++ [id]) else e
  | _, _ => b.cases

def Builder.recordCase (b : Builder) (k : Kind) (id : NodeId) : Builder :=
  { b with cases := b.casesWith k id }

def Builder.enterSwitch (b : Builder) (k : Kind) (p : Placement) (id : NodeId) : Builder :=
  if k = .switch ∧ p = .nest then { b with switches := ⟨id, b.depth⟩ :: b.switches } else b

/-- draws the node of a statement and the edge that it hangs on -/
def Builder.draw (b : Builder) (k : Kind) (t : Text) (line : Int) : Builder :=
  ((b.addNode (k.label t) (k.category t) (some k) line).connect (some (b.sourceFor k))
    (some b.nextId) k.edgeStyle (k.edgeTag t)).recordCase k b.nextId

def Builder.settle (b : Builder) (k : Kind) (p : Placement) (id : NodeId) : Builder :=
  (b.place p id (some k)).enterSwitch k p id

/-- adds a statement as one of kind `k`, whatever its text -/
def Builder.add (b : Builder) (k : Kind) (t : Text) (line : Int) : Builder :=
  ((b.leaveFor k).draw k t line).settle k (k.placement t) (b.leaveFor k).nextId

/-- the text after the closing braces and semicolons at its start -/
def afterClosers (t : Text) : Text := trim (t.dropWhile fun c => c = '}' ∨ c = ';')

/-- does what the braces of a statement ask for, and gives the text that is left to classify;
declaration headers, their bodies and directives leave nothing -/
def Builder.braces (b : Builder) (t : Text) : Builder × Option Text :=
  if declares t then
    (if opensScope t then { b with ignored := b.ignored + 1 } else b, none)
  else if isSkipped t then (b, none)
  else if b.ignored > 0 then
    ({ b with ignored := ((b.ignored : Int) + braceBalance t).toNat }, none)
  else if t = ['{'] then (b, none)
  else if closesScope t then
    (b.pop, if (afterClosers t).isEmpty then none else some (afterClosers t))
  else (b, some t)

/-! ## a source text -/

def Builder.feed (b : Builder) (s : Statement) : Builder :=
  match b.braces s.text with
  | (b', none) => b'
  | (b', some t) => b'.add (Kind.ofText t) t s.line

def Builder.feedAll (b : Builder) (ss : List Statement) : Builder := ss.foldl Builder.feed b

def Builder.finish (b : Builder) : Builder :=
  if b.outer.isEmpty ∧ b.ignored = 0 then b
  else { b with notices := b.notices ++ [.unfinished b.outer.length b.ignored] }

def Builder.run (b : Builder) (src : Text) : Builder := (b.feedAll (statements src)).finish

theorem Builder.feedAll_nil (b : Builder) : b.feedAll [] = b := rfl
theorem Builder.feedAll_cons (b : Builder) (s : Statement) (ss : List Statement) :
    b.feedAll (s :: ss) = (b.feed s).feedAll ss := rfl
theorem Builder.feedAll_append (b : Builder) (xs ys : List Statement) :
    b.feedAll (xs ++ ys) = (b.feedAll xs).feedAll ys := List.foldl_append

def Builder.ofSource (src : Text) : Builder := Builder.fresh.run src

def Flowchart.ofSource (src : Text) : Flowchart := (Builder.ofSource src).chart

end CodeChart
