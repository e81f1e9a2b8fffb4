import CodeChart.Path

/-!
# Languages by file name

* `sourceExtensions`     the extensions of source files and headers with their languages;
* `isSourceName`         a file name that ends in one of them, in either case;
* `languageOfExtension`  the language an extension stands for.
-/

namespace CodeChart

inductive Language where
  | c
  | cpp
  deriving DecidableEq, Repr

def Language.name : Language → Text
  | .c => "c".toList
  | .cpp => "cpp".toList

def sourceExtensions : List (Text × Language) := [
  (".c".toList, .c), (".cpp".toList, .cpp), (".h".toList, .c), (".hpp".toList, .cpp),
  (".cc".toList, .cpp), (".hh".toList, .cpp), (".cxx".toList, .cpp), (".hxx".toList, .cpp)]

/-- capital letters of the ASCII alphabet become small; no other character turns into a letter
of an extension -/
def lowerCase (t : Text) : Text := t.map Char.toLower

def isSourceName (name : Text) : Bool :=
  sourceExtensions.any fun e => e.1.isSuffixOf (lowerCase name)

/-- an extension that is not known is read as the larger language -/
def languageOfExtension (extension : Text) : Language :=
  (sourceExtensions.lookup (lowerCase extension)).getD .cpp

end CodeChart
