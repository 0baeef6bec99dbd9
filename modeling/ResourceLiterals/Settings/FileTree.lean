import ResourceLiterals.Literal.Escape
import ResourceLiterals.Text.Split

/-!
# Files and folders

A folder with files and folders in it, addressed by relative paths.

* `FilePath` is a path without empty and dot segments.
* `FileTree.read?` gives the content of a file, `FileTree.isFolder` tells folders apart.
* `FileTree.write` and `FileTree.makeFolder` also make the folders around what they add.
-/

namespace ResourceLiterals.Settings

/-- The segments of a relative path, of which none is empty or a dot. -/
structure FilePath where
  segments : List String
deriving DecidableEq, Repr

namespace FilePath

def ofText (text : String) : FilePath :=
  let segments := (Text.splitWhere (· == '/') text.toList).map String.ofList
  ⟨segments.filter fun segment => segment ≠ "" && segment ≠ "."⟩

/-- The text of a path, which is a dot for the folder itself. -/
def text (path : FilePath) : String :=
  if path.segments.isEmpty then "." else "/".intercalate path.segments

def name (path : FilePath) : String := path.segments.getLast?.getD ""

def child (path : FilePath) (name : String) : FilePath := ⟨path.segments ++ [name]⟩

end FilePath

/-- The files with their contents, and the folders; paths hold no steps upwards. -/
structure FileTree where
  files : List (FilePath × Bytes)
  folders : List FilePath

namespace FileTree

def empty : FileTree := ⟨[], []⟩

/-- Whether there is a folder at a resolved path. -/
def hasFolder (tree : FileTree) (path : FilePath) : Bool :=
  path.segments.isEmpty || tree.folders.contains path

/-- Follows the segments of a path from a folder on; every segment but the last one has to lead to
a folder. -/
def follow (tree : FileTree) (folder : FilePath) : List String → Option FilePath
  | [] => some folder
  | segment :: rest =>
    if !tree.hasFolder folder then none
    else if segment = ".." then
      if folder.segments.isEmpty then none else follow tree ⟨folder.segments.dropLast⟩ rest
    else follow tree (folder.child segment) rest

/-- The path without steps upwards, if the folders on the way are there. -/
def resolve? (tree : FileTree) (path : FilePath) : Option FilePath :=
  tree.follow ⟨[]⟩ path.segments

/-- Whether a path leads to a folder. -/
def isFolder (tree : FileTree) (path : FilePath) : Bool :=
  (tree.resolve? path).any tree.hasFolder

/-- The content of a file, if a path leads to one. -/
def read? (tree : FileTree) (path : FilePath) : Option Bytes :=
  match tree.resolve? path with
  | some place => tree.files.lookup place
  | none => none

/-- Makes one folder after the other, from a folder on, and gives the place that is reached. -/
def makeFolders (tree : FileTree) (folder : FilePath) : List String → FileTree × FilePath
  | [] => (tree, folder)
  | segment :: rest =>
    if segment = ".." then makeFolders tree ⟨folder.segments.dropLast⟩ rest
    else
      let next := folder.child segment
      let tree :=
        if tree.hasFolder next then tree else { tree with folders := next :: tree.folders }
      makeFolders tree next rest

/-- Makes a folder and all around it. -/
def makeFolder (tree : FileTree) (path : FilePath) : FileTree :=
  (tree.makeFolders ⟨[]⟩ path.segments).1

/-- Writes a file, in folders that are made where they are missing. -/
def write (tree : FileTree) (path : FilePath) (data : Bytes) : FileTree :=
  let (tree, folder) := tree.makeFolders ⟨[]⟩ path.segments.dropLast
  { tree with files := (folder.child path.name, data) :: tree.files }

end FileTree

end ResourceLiterals.Settings
