import CodeChart.File.Workspace
import CodeChart.Flowchart.Graph
import CodeChart.Flowchart.Mermaid
import CodeChart.Graph.Dot
import CodeChart.Graph.Json
import CodeChart.Include.Chart

/-!
# Writing charts to files

* `Format`            the formats a chart can be written in; `Format.ofName?` refuses any other
                      name, and `unknownFormat` words the refusal;
* `Rendering`         the texts of a chart, one per format;
* `Rendering.outputs` what has to be written for a base name and a format;
* `isPacked`          a file name whose extension is not for text;
* `Session.perform`   writes some outputs, up to the first that fails.
-/

namespace CodeChart

/-! ## formats -/

inductive Format where
  | mermaid
  | json
  | dot
  | all
  deriving DecidableEq, Repr

def Format.name : Format → Text
  | .mermaid => "mermaid".toList
  | .json => "json".toList
  | .dot => "dot".toList
  | .all => "all".toList

def Format.list : List Format := [.mermaid, .json, .dot, .all]

def Format.ofName? (t : Text) : Option Format := Format.list.find? fun f => f.name = t

theorem Format.ofName?_name (f : Format) : Format.ofName? f.name = some f := by
  cases f <;> rfl

/-- a chart is written in a format if that is the one asked for, or all are -/
def Format.covers (asked f : Format) : Bool := asked == .all || asked == f

/-- the wording for a format that is none, given as it is shown -/
def unknownFormat (shown : Text) : Text :=
  "Unknown graph format ".toList ++ shown ++ ", expected one of (".toList
    ++ List.intercalate ", ".toList (Format.list.map fun f => showQuoted f.name) ++ ")".toList

/-! ## what is written -/

inductive Output where
  | file (name content : Text)
  /-- a picture of a DOT file, which another program draws -/
  | picture (dotFile : Text)
  deriving DecidableEq, Repr

structure Rendering where
  mermaid : Text
  json : Text
  dot : Text
  deriving DecidableEq, Repr

/-- the name of the picture of a DOT file: another extension, or one more if it has none -/
def pictureName (dotFile : Text) : Text :=
  (match splitLast? '.' dotFile with
    | some (before, _) => before
    | none => dotFile) ++ ".png".toList

def pictureCommand (dotFile : Text) : List Text :=
  ["dot".toList, "-Tpng".toList, dotFile, "-o".toList, pictureName dotFile]

def dotOutputs (name content : Text) (picture : Bool) : List Output :=
  .file name content :: if picture then [.picture name] else []

/-- the files of a chart have one base name, and an extension for each format -/
def Rendering.outputs (r : Rendering) (base : Text) (format : Format) (picture : Bool) :
    List Output :=
  (if format.covers .mermaid then [.file (base ++ ".mmd".toList) r.mermaid] else [])
    ++ (if format.covers .json then [.file (base ++ ".json".toList) r.json] else [])
    ++ (if format.covers .dot then dotOutputs (base ++ ".dot".toList) r.dot picture else [])

def Rendering.outputsFor (r : Rendering) (output : Text) (format : Format) (picture : Bool) :
    List Output :=
  if output = [] then [] else r.outputs (withoutExtension output) format picture

/-! ## the two kinds of charts -/

def Flowchart.rendering (chart : Flowchart) (language : Text) (style : Flowchart.Style) :
    Rendering where
  mermaid := chart.toMermaid style
  json := (chart.toGraph language).toJson NodeId.name
  dot := (chart.toGraph language).toDotFile NodeId.name (some language)

/-- every file has a name, so the drawing always has a text -/
def IncludeChart.toMermaid (c : IncludeChart) (absolute : Path → Path) (direction : Text) : Text :=
  ((c.drawing absolute direction).toMermaid).getD []

def IncludeChart.rendering (c : IncludeChart) (absolute : Path → Path) (direction : Text) :
    Rendering where
  mermaid := c.toMermaid absolute direction
  json := c.graph.toJson fileId
  dot := c.graph.toDotFile fileId (some Language.cpp.name)

/-! ## writing -/

/-- the files written so far, with the names on the way to them, and the commands to run -/
structure Session where
  written : List (List FileName × Text)
  commands : List (List Text)
  deriving DecidableEq, Repr

def Session.fresh : Session := ⟨[], []⟩

structure FileFailure where
  name : Text
  error : FileError
  deriving DecidableEq, Repr

def packedExtensions : List Text := [".gz".toList, ".gzip".toList, ".bz2".toList]

def isPacked (name : Text) : Bool :=
  packedExtensions.contains (name.drop (withoutExtension name).length)

/-- writes in turn and stops at the first file that cannot be written -/
def Session.perform (s : Session) (ws : Workspace) : List Output → Session × Option FileFailure
  | [] => (s, none)
  | .picture dotFile :: rest =>
    { s with commands := s.commands ++ [pictureCommand dotFile] }.perform ws rest
  | .file name content :: rest =>
    match ws.target name with
    | .error e => (s, some ⟨name, e⟩)
    | .ok path =>
      if isPacked name then (s, some ⟨name, .packed⟩)
      else { s with written := Assoc.set s.written path content }.perform ws rest

end CodeChart
