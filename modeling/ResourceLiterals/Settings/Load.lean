import ResourceLiterals.Settings.FileTree
import ResourceLiterals.Settings.FromToml
import ResourceLiterals.Toml.Source

/-!
# Loading settings from files

Settings are read from TOML files and laid one over the other, with the defaults at the bottom.  A
file that is missing or malformed counts as empty.

* `loadTable` reads a file as a table, `loadFile` its settings.
* `loadMerged` lays the settings of several files over the defaults.

The texts in the files are read by a `Toml.Reader`, which stays a parameter.
-/

namespace ResourceLiterals.Settings

open Log (Record)
open Toml (LoadError Table)

/-- The file that is looked for in a folder. -/
def configFileName : String := "embedres.toml"
/-- The file that keeps the settings in a section of its own. -/
def projectFileName : String := "pyproject.toml"
/-- The section with the settings of all tools. -/
def toolSection : String := "tool"
/-- The section with these settings among those of all tools. -/
def ownSection : String := "embedres"

variable [Toml.Reader]

/-- The table in a file; the empty one if there is no such file. -/
def loadTable (tree : FileTree) (path : FilePath) : Except LoadError Table :=
  match tree.read? path with
  | some data => Toml.load data
  | none => .ok []

namespace Builder

/-- The settings in a file.  A project file without a section for them has none. -/
def loadFile (tree : FileTree) (path : FilePath) : Except LoadError (Option Builder) := do
  let table ← loadTable tree path
  if path.name = projectFileName then
    let own := sectionOf (sectionOf table toolSection) ownSection
    return if own.isEmpty then none else some (ofTable (some path.text) own)
  else
    return some (ofTable (some path.text) table)

/-- The file that a path stands for: itself, or the one in the folder that it leads to. -/
def configFile (tree : FileTree) (path : FilePath) : FilePath :=
  if tree.isFolder path then path.child configFileName else path

/-- The settings of files, from the second one on over those before. -/
def loadOver (tree : FileTree) (builder : Builder) : List FilePath → Except LoadError Builder
  | [] => .ok builder
  | path :: paths => do
    match ← loadFile tree (configFile tree path) with
    | some upper => loadOver tree (builder.merge upper) paths
    | none => loadOver tree builder paths

/-- The settings of files over the defaults; later files win. -/
def loadMerged (tree : FileTree) (paths : List FilePath) : Except LoadError Builder :=
  loadOver tree ofDefaults paths

/-- What there is to report about loading files, up to one that cannot be loaded. -/
def loadReports (tree : FileTree) : List FilePath → List Record
  | [] => []
  | path :: paths =>
    match loadFile tree (configFile tree path) with
    | .error _ => []
    | .ok layer =>
      layer.toList.flatMap (reports empty) ++ loadReports tree paths

end Builder

end ResourceLiterals.Settings
