import CodeChart.File.Workspace
import CodeChart.Source.Language
import CodeChart.Text.Utf8

/-!
# Source files below a directory

* `SourceFile`              a file with its path, its folder and its content;
* `Workspace.sourceFiles`   the source files below a root in the order of their paths; a
                            directory with an ignored name is not entered;
* `Workspace.rootError?`    what is wrong with a root, apart from having no files;
* `projectFolders`          the folders of these files, in order, each once;
* `folderOf?`               the folder of a file with respect to a root;
* `isInFolders`             a folder is one of some folders or lies in one.
-/

namespace CodeChart

/-! ## folders -/

def rootFolder : Text := "Root".toList

/-- a folder by its components below the root -/
def folderName (components : List FileName) : Text :=
  if components = [] then rootFolder else List.intercalate ['/'] components

/-- the folder of `file` below `root`, if it lies there -/
def folderOf? (file root : Path) : Option Text :=
  (file.parent.relativeTo? root).map fun p => folderName p.parts

def trimSlashes (t : Text) : Text := (t.reverse.dropWhile (· = '/')).reverse

def isInFolder (folder allowed : Text) : Bool :=
  folder == allowed || (trimSlashes allowed ++ ['/']).isPrefixOf folder

def isInFolders (folder : Text) (allowed : List Text) : Bool := allowed.any (isInFolder folder)

/-! ## files -/

/-- `content` is missing if the file cannot be read -/
structure SourceFile where
  path : Path
  folder : Text
  content : Option Text
  deriving DecidableEq, Repr

def standardIgnored : List FileName := [
  "build".toList, "out".toList, "dist".toList, "node_modules".toList, "external".toList,
  "cmake-build-debug".toList, "cmake-build-release".toList, ".git".toList, ".vscode".toList]

def Entry.content? : Entry → Option Text
  | .file octets => some (textOfOctets octets)
  | _ => none

def SourceFile.ofLeaf (root : Path) (leaf : List FileName × Entry) : SourceFile :=
  ⟨root.append leaf.1, folderName leaf.1.dropLast, leaf.2.content?⟩

/-- the source files below a directory, in the order of the directory -/
def Entry.sourceFiles (root : Path) (ignored : List FileName) (e : Entry) : List SourceFile :=
  let leaves := e.leaves fun name => !ignored.contains name
  (leaves.filter fun leaf => isSourceName (leaf.1.getLast?.getD [])).map (SourceFile.ofLeaf root)

def pathLe (a b : SourceFile) : Bool := textLe a.path.text b.path.text

/-- a root that cannot be looked for at all -/
def Workspace.rootError? (ws : Workspace) (root : Path) : Option FileError :=
  match ws.find root.text with
  | .error .malformed => some .malformed
  | _ => none

/-- a root that is missing or no directory has no files -/
def Workspace.sourceFiles (ws : Workspace) (root : Path) (ignored : List FileName) :
    List SourceFile :=
  match ws.find root.text with
  | .ok p => (p.entry.sourceFiles root ignored).mergeSort pathLe
  | .error _ => []

def projectFolders (files : List SourceFile) : List Text :=
  (files.map SourceFile.folder).eraseDups.mergeSort textLe

theorem folderOf?_ofLeaf (root : Path) (names : List FileName) (name : FileName) (e : Entry) :
    folderOf? (SourceFile.ofLeaf root (names ++ [name], e)).path root
      = some (SourceFile.ofLeaf root (names ++ [name], e)).folder := by
  simp only [SourceFile.ofLeaf, folderOf?, Path.parent_append_singleton,
    Path.relativeTo?_append, List.dropLast_concat, Option.map_some]

end CodeChart
