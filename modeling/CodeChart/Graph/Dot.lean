import CodeChart.Graph.Basic
import CodeChart.Source.Language
import CodeChart.Text.Word

/-!
# Graphs as DOT text

The text is written by a library, which is handed a graph with its labels made ready
(`Graph.withQuotedLabels`): a value that is quoted already is written as it is.  The definitions
before the labels stand for this library; what they assume of it is the following.

* A value stands as it is if it is a numeral, letters and digits of which the first is no digit, or
  delimited by double quotes or by angle brackets; a line end after a numeral or a delimiter does
  not count.  Anything else is put between quotes, and so are the words of the format, in any case,
  and the empty text (`Dot.value`).
* Between such quotes, quotes and line ends are escaped and backslashes are left alone
  (`Dot.quote`).
* Some names of attributes belong to the node or the edge itself, and a graph with one of them is
  refused: the nodes are made first, then the edges (`Graph.refusal?`).
* There is one line per node and then one per edge.  In a multigraph the key of an edge comes first
  among its attributes, and a graph that is none and in which no edge leads back to its start has
  `strict` in its first line (`Graph.toDot`).
-/

namespace CodeChart

namespace Dot

/-! ## values -/

/-- words with a meaning of their own, in whatever case they are written -/
def keywords : List Text :=
  ["graph".toList, "subgraph".toList, "digraph".toList, "node".toList, "edge".toList,
    "strict".toList]

/-- between quotes, with quotes and line ends escaped and backslashes left alone -/
def quote (t : Text) : Text :=
  let escape := fun c =>
    if c = '"' then ['\\', '"']
    else if c = '\n' then ['\\', 'n']
    else if c = '\r' then ['\\', 'r']
    else [c]
  '"' :: t.flatMap escape ++ ['"']

def withoutLineEnd (t : Text) : Text := if t.getLast? = some '\n' then t.dropLast else t

def isNumeral (t : Text) : Bool :=
  let whole := t.takeWhile Char.isDigit
  match t.dropWhile Char.isDigit with
  | [] => !whole.isEmpty
  | '.' :: fraction => fraction.all Char.isDigit && !(whole.isEmpty && fraction.isEmpty)
  | _ => false

def isDelimited (t : Text) : Bool :=
  (t.length ≥ 2 && t.head? == some '"' && t.getLast? == some '"')
    || (t.head? == some '<' && t.getLast? == some '>')

/-- numerals and delimited values stand as they are, and a line end after them does not count -/
def value (t : Text) : Text :=
  if t.isEmpty then ['"', '"']
  else if keywords.contains (lowerCase t) then quote t
  else if t.all isDigit then t
  else if t.all isAlphanumeric then if t.head?.any isDigit then quote t else t
  else if isDelimited (withoutLineEnd t) then t
  else if t.any fun c => c.toNat > 0x7F ∨ c.toNat = 0 then quote t
  else if isNumeral (withoutLineEnd t) then t
  else quote t

/-! ## lines -/

def attributesText (a : Attributes) : Text :=
  if a.isEmpty then []
  else " [".toList
    ++ List.intercalate ", ".toList (a.map fun e => e.1 ++ "=".toList ++ value e.2.toText)
    ++ "]".toList

/-- the attributes of an edge as they are written: in a multigraph the key comes first -/
def edgeAttributes (multi : Bool) (key : Value) (a : Attributes) : Attributes :=
  if multi then (Graph.keyName, key) :: a else a

end Dot

variable {ι : Type} [DecidableEq ι]

def GraphNode.dotLine (name : ι → Text) (n : GraphNode ι) : Text :=
  name n.id ++ Dot.attributesText n.attributes ++ ";\n".toList

def GraphEdge.dotLine (name : ι → Text) (multi : Bool) (e : GraphEdge ι) : Text :=
  name e.source ++ " -> ".toList ++ name e.target
    ++ Dot.attributesText (Dot.edgeAttributes multi e.key e.attributes) ++ ";\n".toList

/-! ## attributes that cannot be written -/

/-- why the attributes of a node or an edge cannot be written -/
inductive Dot.Refusal where
  /-- the name of an attribute stands for something else, or its value is no description -/
  | taken
  /-- a description is given in the place of the attributes, and it is empty -/
  | undescribed
  deriving DecidableEq, Repr

def Dot.nodeNames : List Text := ["name".toList, "self".toList]

def Dot.edgeNames : List Text := ["src".toList, "dst".toList, "self".toList]

/-- what has this name describes the node or the edge as a whole; only an empty text does so -/
def Dot.descriptionName : Text := "obj_dict".toList

def Attributes.haveName (a : Attributes) (names : List Text) : Bool :=
  a.any fun e => names.contains e.1

def Attributes.refusal? (a : Attributes) (names : List Text) : Option Dot.Refusal :=
  if a.haveName names then some .taken
  else (a.lookup Dot.descriptionName).map fun v =>
    if v.toText.isEmpty then .undescribed else .taken

/-- the first node that cannot be written decides, and after the nodes the first edge -/
def Graph.refusal? (g : Graph ι) : Option Dot.Refusal :=
  (g.nodes.findSome? fun n => n.attributes.refusal? Dot.nodeNames).or
    (g.orderedEdges.findSome? fun e => e.attributes.refusal? Dot.edgeNames)

/-! ## the text -/

/-- a graph in which two nodes have one edge at most and none leads back to its start -/
def Graph.isStrict (g : Graph ι) : Bool := !g.multi && !g.hasSelfLoop

def Graph.toDot (name : ι → Text) (g : Graph ι) : Text :=
  (if g.isStrict then "strict ".toList else []) ++ "digraph \x7b\n".toList
    ++ g.nodes.flatMap (GraphNode.dotLine name)
    ++ g.orderedEdges.flatMap (GraphEdge.dotLine name g.multi)
    ++ "\x7d\n".toList

/-! ## labels -/

namespace Dot

def quotesAll (language : Option Text) : Bool :=
  language == some Language.c.name || language == some Language.cpp.name

def capitalised (t : Text) : Text :=
  match t with
  | [] => []
  | c :: rest => c.toUpper :: rest

def isReserved (t : Text) : Bool :=
  keywords.contains t || (keywords.map capitalised).contains t

/-- backslashes and quotes are escaped and line ends become blanks -/
def escapeLabel (c : Char) : Text :=
  if c = '\\' then ['\\', '\\']
  else if c = '"' then ['\\', '"']
  else if c = '\n' ∨ c = '\r' then [' ']
  else [c]

def quoteLabel (t : Text) : Text := '"' :: t.flatMap escapeLabel ++ ['"']

def nodeLabel (language : Option Text) (t : Text) : Text :=
  if quotesAll language then quoteLabel t
  else if isReserved t then '"' :: t ++ ['"']
  else t

/-- quotes alone are escaped; an empty label is no label -/
def edgeLabel? (t : Text) : Option Text :=
  if t.isEmpty then none
  else some ('"' :: t.flatMap (fun c => if c = '"' then ['\\', '"'] else [c]) ++ ['"'])

def withNodeLabel (language : Option Text) (a : Attributes) : Attributes :=
  match a.lookup "label".toList with
  | some v => Assoc.set a "label".toList (.text (nodeLabel language v.toText))
  | none => a

def withEdgeLabel (a : Attributes) : Attributes :=
  match a.lookup "label".toList with
  | some v =>
    match edgeLabel? v.toText with
    | some t => Assoc.set a "label".toList (.text t)
    | none => Assoc.erase a "label".toList
  | none => a

end Dot

def Graph.withQuotedLabels (language : Option Text) (g : Graph ι) : Graph ι :=
  (g.mapNodes (Dot.withNodeLabel language)).mapEdges Dot.withEdgeLabel

def Graph.toDotFile (name : ι → Text) (language : Option Text) (g : Graph ι) : Text :=
  (g.withQuotedLabels language).toDot name

end CodeChart
