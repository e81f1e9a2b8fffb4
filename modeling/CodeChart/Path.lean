import CodeChart.Text.Basic

/-!
# Paths

A path is a list of components behind an anchor.  Empty components and single dots mean nothing
and are dropped when a path is read; two dots are kept.  A backslash is an ordinary character.

* `Path.ofText`, `Path.text`   reading and writing;
* `Path.parent`, `Path.name`, `Path.extension`   parts of a path;
* `Path.relativeTo?`           what a path adds to another one;
* `withoutExtension`           a file name as it was given, less its last extension.
-/

namespace CodeChart

/-! ## reading and writing -/

inductive Anchor where
  | relative
  | root
  /-- exactly two slashes, which are kept apart from one -/
  | doubleRoot
  deriving DecidableEq, Repr

def Anchor.text : Anchor → Text
  | .relative => []
  | .root => ['/']
  | .doubleRoot => ['/', '/']

structure Path where
  anchor : Anchor
  parts : List Text
  deriving DecidableEq, Repr

def Anchor.ofText (t : Text) : Anchor :=
  match (t.takeWhile (· = '/')).length with
  | 0 => .relative
  | 2 => .doubleRoot
  | _ => .root

def isPart (t : Text) : Bool := t ≠ [] && t ≠ ['.']

def pathParts (t : Text) : List Text := (splitOn '/' t).filter isPart

def Path.ofText (t : Text) : Path := ⟨.ofText t, pathParts t⟩

def Path.here : Path := ⟨.relative, []⟩

def Path.text (p : Path) : Text :=
  if p.anchor = .relative ∧ p.parts = [] then ['.']
  else p.anchor.text ++ List.intercalate ['/'] p.parts

/-! ## parts of a path -/

def Path.parent (p : Path) : Path := { p with parts := p.parts.dropLast }

def Path.name (p : Path) : Text := p.parts.getLast?.getD []

def Path.append (p : Path) (parts : List Text) : Path := { p with parts := p.parts ++ parts }

/-- what `p` adds to `base`, if it lies below it -/
def Path.relativeTo? (p base : Path) : Option Path :=
  if p.anchor = base.anchor ∧ base.parts <+: p.parts then
    some ⟨.relative, p.parts.drop base.parts.length⟩
  else none

theorem Path.relativeTo?_append (base : Path) (parts : List Text) :
    (base.append parts).relativeTo? base = some ⟨.relative, parts⟩ := by
  simp [Path.relativeTo?, Path.append]

theorem Path.parent_append_singleton (base : Path) (parts : List Text) (t : Text) :
    (base.append (parts ++ [t])).parent = base.append parts := by
  simp [Path.parent, Path.append, ← List.append_assoc]

/-! ## extensions -/

/-- the text before the last occurrence of `c` and the text after it -/
def splitLast? (c : Char) (t : Text) : Option (Text × Text) :=
  match t.reverse.dropWhile (· ≠ c) with
  | [] => none
  | _ :: before => some (before.reverse, (t.reverse.takeWhile (· ≠ c)).reverse)

/-- the last extension of a name with its dot; a name that starts or ends with its only dot has
none -/
def extensionOf (name : Text) : Text :=
  match splitLast? '.' name with
  | some (before, after) => if before = [] ∨ after = [] then [] else '.' :: after
  | none => []

def Path.extension (p : Path) : Text := extensionOf p.name

/-- a file name without its last extension; dots at the start of the last component are no
extension -/
def withoutExtension (t : Text) : Text :=
  let name := (t.reverse.takeWhile (· ≠ '/')).reverse
  match splitLast? '.' name with
  | some (before, after) =>
    if before.all (· = '.') then t else t.take (t.length - (after.length + 1))
  | none => t

end CodeChart
