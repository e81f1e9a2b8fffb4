import CodeChart.Source.Comment
import CodeChart.Source.Segment

/-!
# The statements of a source text

* `Statement`    a statement with the line it was written on;
* `statements`   the statements of a source text in order: block comments are deleted, line
                 comments are cut off, and every logical line is cut into its statements;
* `normalized`   the statements alone, one per line.
-/

namespace CodeChart

structure Statement where
  text : Text
  line : Nat
  deriving DecidableEq, Repr

/-- the statements of a logical line all carry its number -/
def LogicalLine.statements (l : LogicalLine) : List Statement :=
  (splitLine (trim (cutLineComment l.text))).map fun t => ⟨t, l.line⟩

theorem LogicalLine.map_text_statements (l : LogicalLine) :
    l.statements.map Statement.text = splitLine (trim (cutLineComment l.text)) := by
  simp [LogicalLine.statements, Function.comp_def]

def statements (src : Text) : List Statement :=
  (logicalLines src).flatMap LogicalLine.statements

def normalized (src : Text) : Text :=
  List.intercalate ['\n'] ((statements src).map Statement.text)

end CodeChart
