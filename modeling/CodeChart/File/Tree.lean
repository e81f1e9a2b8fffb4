import CodeChart.Path

/-!
# Trees of files

* `Entry`          a file, something that is listed but cannot be opened, or a directory;
* `Entry.insert`   an entry at a place below a directory, with the directories on the way;
* `Entry.leaves`   the entries below a directory that are no directories, with their places;
                   some directories are not entered.
-/

namespace CodeChart

abbrev FileName := Text

inductive Entry where
  | file (octets : List UInt8)
  | special
  | dir (entries : List (FileName × Entry))

namespace Entry

def emptyDir : Entry := .dir []

def isDir : Entry → Bool
  | .dir _ => true
  | _ => false

def isFile : Entry → Bool
  | .file _ => true
  | _ => false

def child? (e : Entry) (name : FileName) : Option Entry :=
  match e with
  | .dir entries => entries.lookup name
  | _ => none

/-- takes the place of what is there, but an empty directory adds nothing to a directory -/
def replacedBy (e new : Entry) : Entry :=
  match e, new with
  | .dir entries, .dir [] => .dir entries
  | _, _ => new

/-- the directories on the way are made where they are missing -/
def insert (e : Entry) (place : List FileName) (new : Entry) : Entry :=
  match place with
  | [] => e.replacedBy new
  | name :: rest =>
    match e with
    | .dir entries =>
      match entries.lookup name with
      | some old =>
        .dir (entries.map fun c => if c.1 = name then (name, insert old rest new) else c)
      | none => .dir (entries ++ [(name, insert emptyDir rest new)])
    | other => other

mutual

/-- places are given by the names on the way, the own name last -/
def leaves (entered : FileName → Bool) : Entry → List (List FileName × Entry)
  | .dir entries => leavesOf entered entries
  | _ => []

def leavesOf (entered : FileName → Bool) : List (FileName × Entry) → List (List FileName × Entry)
  | [] => []
  | (name, e) :: rest =>
    let here := match e with
      | .dir _ =>
        if entered name then (leaves entered e).map fun p => (name :: p.1, p.2) else []
      | other => [([name], other)]
    here ++ leavesOf entered rest

end

end Entry

end CodeChart
