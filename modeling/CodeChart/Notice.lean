import CodeChart.Text.Basic

/-!
# Notices

What is worth telling about a run, apart from its result.

* `Level`    how serious a notice is;
* `Notice`   a notice with its wording.
-/

namespace CodeChart

inductive Level where
  | debug
  | warning
  | error
  deriving DecidableEq, Repr

def Level.name : Level → Text
  | .debug => "DEBUG".toList
  | .warning => "WARNING".toList
  | .error => "ERROR".toList

structure Notice where
  level : Level
  message : Text
  deriving DecidableEq, Repr

end CodeChart
