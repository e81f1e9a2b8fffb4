import CodeChart.Flowchart.Label

/-!
# Mermaid text

What both kinds of charts share: a chart is written as lines, each with a line end, and a node
can be bound to a click.

* `unlines`        the text of some lines;
* `graphLine`      the first line of a chart;
* `clickLine`      binds a node to a click that hands over a payload.
-/

namespace CodeChart.Mermaid

def unlines (lines : List Text) : Text := lines.flatMap fun l => l ++ ['\n']

theorem unlines_cons (l : Text) (ls : List Text) :
    unlines (l :: ls) = l ++ '\n' :: unlines ls := by
  simp [unlines]

def graphLine (direction : Text) : Text := "graph ".toList ++ direction ++ ";".toList

/-- a text between double quotes -/
def quoted (t : Text) : Text := '"' :: t ++ ['"']

def clickLine (id payload : Text) : Text :=
  "click ".toList ++ id ++ " call onNodeClick(".toList ++ quoted id ++ ", ".toList
    ++ quoted payload ++ ");".toList

/-- an arrow with nothing on it -/
def arrowLine (source target : Text) : Text := source ++ " --> ".toList ++ target ++ ";".toList

end CodeChart.Mermaid
