import CodeChart.Graph.Basic

/-!
# Graphs as node-link JSON

The text is made by two libraries, one that turns a graph into objects and lists and one that
writes these as text.  The definitions here stand for both; what they assume is the following.

* A graph is an object with five fields in this order: whether it is directed, whether it is a
  multigraph, its own attributes, its nodes and its edges (`Graph.toJson`).
* A node is its attributes and then `id`; an edge is its attributes, then `source` and `target`, and
  in a multigraph `key`.  An attribute of one of these names gives up its value, not its place
  (`GraphNode.toJson`, `GraphEdge.toJson`).
* The text is ASCII: any other character is written by its UTF-16 code units, in four small
  hexadecimal digits each (`Json.escape`).
* A comma or a colon is followed by one blank, and there are no line ends (`Json.array`,
  `Json.object`).
-/

namespace CodeChart

namespace Json

/-! ## strings -/

/-- a code unit by its number -/
def unit (n : Nat) : Text := '\\' :: 'u' :: hexadecimal 4 n

/-- a character beyond the first plane takes two code units -/
def escape (c : Char) : Text :=
  if c = '"' then ['\\', '"']
  else if c = '\\' then ['\\', '\\']
  else if c = '\n' then ['\\', 'n']
  else if c = '\r' then ['\\', 'r']
  else if c = '\t' then ['\\', 't']
  else if c = '\x08' then ['\\', 'b']
  else if c = '\x0c' then ['\\', 'f']
  else if 0x20 ≤ c.toNat ∧ c.toNat ≤ 0x7E then [c]
  else if c.toNat < 0x10000 then unit c.toNat
  else
    let n := c.toNat - 0x10000
    unit (0xD800 + n / 0x400) ++ unit (0xDC00 + n % 0x400)

def string (t : Text) : Text := '"' :: t.flatMap escape ++ ['"']

/-! ## other values -/

def bool (b : Bool) : Text := if b then "true".toList else "false".toList

def number (n : Int) : Text := signedDecimal n

def array (items : List Text) : Text :=
  '[' :: List.intercalate ", ".toList items ++ [']']

def object (fields : List (Text × Text)) : Text :=
  '{' :: List.intercalate ", ".toList (fields.map fun f => string f.1 ++ ": ".toList ++ f.2)
    ++ ['}']

end Json

/-! ## graphs -/

def Value.toJson : Value → Text
  | .text t => Json.string t
  | .number n => Json.number n

def Attributes.toJson (a : Attributes) : Text :=
  Json.object (a.map fun e => (e.1, e.2.toJson))

variable {ι : Type} [DecidableEq ι]

/-- the identifier comes after the attributes -/
def GraphNode.toJson (name : ι → Text) (n : GraphNode ι) : Text :=
  Attributes.toJson (Assoc.set n.attributes "id".toList (.text (name n.id)))

/-- the ends come after the attributes, and in a multigraph the key -/
def GraphEdge.toJson (name : ι → Text) (multi : Bool) (e : GraphEdge ι) : Text :=
  let started := Assoc.set e.attributes "source".toList (.text (name e.source))
  let ended := Assoc.set started "target".toList (.text (name e.target))
  Attributes.toJson (if multi then Assoc.set ended Graph.keyName e.key else ended)

def Graph.toJson (name : ι → Text) (g : Graph ι) : Text :=
  Json.object [
    ("directed".toList, Json.bool true),
    ("multigraph".toList, Json.bool g.multi),
    ("graph".toList, Attributes.toJson g.attributes),
    ("nodes".toList, Json.array (g.nodes.map (GraphNode.toJson name))),
    ("edges".toList, Json.array (g.orderedEdges.map (GraphEdge.toJson name g.multi)))]

end CodeChart
