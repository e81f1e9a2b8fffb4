import CodeChart.File.Tree
import CodeChart.Text.Quoted

/-!
# Names of files, looked up from a working directory

A name is followed component by component: nothing and a single dot stay in a directory, two
dots leave it, and only a directory has anything below it.

* `Workspace`          all files, and where the working directory is;
* `Workspace.find`     the place a name leads to;
* `Workspace.read`     the octets of a file;
* `Workspace.target`   the place where a file of a name can be written;
* `Workspace.absolute` a path from the top, without dots.
-/

namespace CodeChart

/-! ## what can go wrong -/

inductive FileError where
  | missing
  | isDirectory
  | notDirectory
  /-- the entry is there but cannot be opened -/
  | unavailable
  /-- no entry can have a name of this length -/
  | tooLong
  /-- the name holds a character that no name can hold -/
  | malformed
  /-- the extension asks for packed octets, and what is to be written is text -/
  | packed
  deriving DecidableEq, Repr

def FileError.reason : FileError → Text
  | .missing => "[Errno 2] No such file or directory".toList
  | .isDirectory => "[Errno 21] Is a directory".toList
  | .notDirectory => "[Errno 20] Not a directory".toList
  | .unavailable => "[Errno 6] No such device or address".toList
  | .tooLong => "[Errno 36] File name too long".toList
  | .malformed => "Embedded null character".toList
  | .packed => "Text cannot be packed".toList

def FileError.message (e : FileError) (name : Text) : Text :=
  e.reason ++ ": ".toList ++ showQuoted name

/-! ## following a name -/

def octetCount (t : Text) : Nat := t.foldr (fun c n => c.utf8Size + n) 0

def maxComponent : Nat := 255
def maxName : Nat := 4095

/-- what is wrong with a name, whatever entries there are -/
def nameError? (name : Text) : Option FileError :=
  if name.contains '\x00' then some .malformed
  else if name = [] then some .missing
  else if octetCount name > maxName then some .tooLong
  else none

/-- an entry, the names that lead to it from the top, and the directories around it; the
innermost comes first -/
structure Place where
  names : List FileName
  entry : Entry
  outer : List Entry

def Place.top (root : Entry) : Place := ⟨[], root, []⟩

def Place.path (p : Place) : List FileName := p.names.reverse

/-- above the top there is only the top -/
def Place.step (p : Place) (component : Text) : Except FileError Place :=
  if !p.entry.isDir then .error .notDirectory
  else if component = [] ∨ component = ['.'] then .ok p
  else if component = ['.', '.'] then
    match p.outer with
    | [] => .ok p
    | e :: more => .ok ⟨p.names.tail, e, more⟩
  else if octetCount component > maxComponent then .error .tooLong
  else
    match p.entry.child? component with
    | some e => .ok ⟨component :: p.names, e, p.entry :: p.outer⟩
    | none => .error .missing

def Place.walk (p : Place) (components : List Text) : Except FileError Place :=
  components.foldlM Place.step p

structure Workspace where
  root : Entry
  here : Place

/-- the working directory is where some names lead from the top; if they lead nowhere it is empty -/
def Workspace.ofLocation (root : Entry) (location : List FileName) : Workspace :=
  match (Place.top root).walk location with
  | .ok p => ⟨root, p⟩
  | .error _ => ⟨root, ⟨location.reverse, Entry.emptyDir, []⟩⟩

def Workspace.location (ws : Workspace) : List FileName := ws.here.path

/-- where a name starts: at the top or in the working directory -/
def Workspace.origin (ws : Workspace) (name : Text) : Place :=
  if name.head? = some '/' then Place.top ws.root else ws.here

def Workspace.find (ws : Workspace) (name : Text) : Except FileError Place :=
  match nameError? name with
  | some e => .error e
  | none => (ws.origin name).walk (splitOn '/' name)

/-! ## reading and writing -/

def Workspace.read (ws : Workspace) (name : Text) : Except FileError (List UInt8) :=
  match ws.find name with
  | .error e => .error e
  | .ok p =>
    match p.entry with
    | .file octets => .ok octets
    | .special => .error .unavailable
    | .dir _ => .error .isDirectory

/-- the names on the way to a file that can be written; only the last one may be new -/
def Workspace.target (ws : Workspace) (name : Text) : Except FileError (List FileName) :=
  match nameError? name with
  | some e => .error e
  | none =>
    let backwards := (splitOn '/' name).reverse
    match backwards.dropWhile List.isEmpty with
    | [] => .error .isDirectory
    | last :: before =>
      match (ws.origin name).walk before.reverse with
      | .error e => .error e
      | .ok parent =>
        match parent.step last with
        | .error .missing =>
          if name.getLast? = some '/' then .error .isDirectory
          else .ok (parent.path ++ [last])
        | .error e => .error e
        | .ok p =>
          if name.getLast? = some '/' then .error .isDirectory
          else match p.entry with
            | .file _ => .ok p.path
            | .special => .error .unavailable
            | .dir _ => .error .isDirectory

/-! ## absolute paths -/

def collapse (components : List FileName) : List FileName :=
  (components.foldl (fun acc c => if c = ['.', '.'] then acc.tail else c :: acc) []).reverse

def Workspace.absolute (ws : Workspace) (p : Path) : Path :=
  ⟨.root, collapse (if p.anchor = .relative then ws.location ++ p.parts else p.parts)⟩

end CodeChart
