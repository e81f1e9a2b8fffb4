import CodeChart.Flowchart.Kind

/-!
# Nodes and edges of a flowchart

* `NodeId`     the start node, the nodes a chart makes in order, and nodes that are named from
               outside;
* `Category`   what a node looks like;
* `Node`, `Edge`   the records a chart consists of;
* `Flowchart`  nodes and edges in the order of their creation.
-/

namespace CodeChart

/-! ## identifiers -/

inductive NodeId where
  | start
  | node (index : Nat)
  | named (name : Text)
  deriving DecidableEq, Repr

def NodeId.name : NodeId → Text
  | .start => "Start".toList
  | .node k => "Node".toList ++ decimal k
  | .named t => t

/-- the number that a text is the decimal form of -/
def ofDecimal? (t : Text) : Option Nat :=
  if decimal (digitsValue t) = t then some (digitsValue t) else none

/-- the identifier that a name stands for -/
def NodeId.ofName (t : Text) : NodeId :=
  if t = "Start".toList then .start
  else if "Node".toList.isPrefixOf t then
    match ofDecimal? (t.drop 4) with
    | some k => .node k
    | none => .named t
  else .named t

theorem decimal_of_ofDecimal? {t : Text} {k : Nat} (h : ofDecimal? t = some k) :
    decimal k = t := by
  unfold ofDecimal? at h
  split at h
  · rename_i hd
    exact Option.some.inj h ▸ hd
  · cases h

theorem NodeId.name_ofName (t : Text) : (NodeId.ofName t).name = t := by
  unfold NodeId.ofName
  split
  · rename_i h
    exact h.symm
  · split
    · rename_i h
      obtain ⟨u, rfl⟩ := List.isPrefixOf_iff_prefix.1 h
      split
      · rename_i k hk
        exact congrArg ("Node".toList ++ ·) (decimal_of_ofDecimal? hk)
      · rfl
    · rfl

/-! ## nodes -/

inductive Category where
  | standard
  | decision
  | process
  | terminator
  | switchHeader
  | exceptionBlock
  | other (name : Text)
  deriving DecidableEq, Repr

def Category.name : Category → Text
  | .standard => "default".toList
  | .decision => "decision".toList
  | .process => "process".toList
  | .terminator => "terminator".toList
  | .switchHeader => "switchHeader".toList
  | .exceptionBlock => "exceptionBlock".toList
  | .other t => t

def Category.all : List Category :=
  [.standard, .decision, .process, .terminator, .switchHeader, .exceptionBlock]

def Category.ofName (t : Text) : Category :=
  (Category.all.find? fun c => c.name = t).getD (.other t)

structure Node where
  id : NodeId
  label : Text
  category : Category
  kind : Option Kind
  line : Int
  deriving DecidableEq, Repr

/-! ## edges -/

inductive EdgeStyle where
  | solid
  | dashed
  | other (name : Text)
  deriving DecidableEq, Repr

def EdgeStyle.name : EdgeStyle → Text
  | .solid => "solid".toList
  | .dashed => "dashed".toList
  | .other t => t

def EdgeStyle.ofName (t : Text) : EdgeStyle :=
  if t = "solid".toList then .solid else if t = "dashed".toList then .dashed else .other t

structure Edge where
  source : NodeId
  target : NodeId
  style : EdgeStyle
  tag : Option Text
  deriving DecidableEq, Repr

/-! ## charts -/

structure Flowchart where
  nodes : List Node
  edges : List Edge
  deriving DecidableEq, Repr

end CodeChart
