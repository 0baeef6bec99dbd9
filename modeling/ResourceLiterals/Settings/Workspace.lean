import ResourceLiterals.Paths.Pattern
import ResourceLiterals.Settings.Load
import ResourceLiterals.Toml.Document

/-!
# Workspaces

A workspace is where configurations are prepared: a registry, a folder with files, and builders and
configurations under names.  It changes step by step; a step that fails leaves everything as it was,
except that a builder whose patterns are refused stays sanitized.

* `Step` lists what can be done, `Workspace.take` does it.
* `Workspace.reports` says what there is to report about a step.

All of this is said for any readers of patterns and of TOML; those of this library come in with the
imports.  A run of steps starts after the first look-up of a name, with the built-in subformats in
place.
-/

namespace ResourceLiterals.Settings

open Log (Record)
open Paths (PatternReader)
open Toml (LoadError Table)

/-- Settings to be changed in a builder.  The outer option tells whether to change a setting, the
inner one whether it is set afterwards. -/
structure Edit where
  width : Option (Option Int)
  column : Option (Option Int)
  default : Option (Option String)
  patterns : List (String × List String)

def Builder.edit (edit : Edit) (builder : Builder) : Builder :=
  { builder with
    width := edit.width.getD builder.width
    column := edit.column.getD builder.column
    default := edit.default.getD builder.default
    patterns := builder.patterns.setAll edit.patterns }

/-- Something that can be done in a workspace.  Builders and configurations are named apart. -/
inductive Step where
  | register (name : String) (subformat : Subformat)
  | store (target : String) (builder : Builder)
  /-- Stores the settings in a table, which may come from a file. -/
  | readTable (target : String) (file : Option String) (table : Table)
  | loadFile (target : String) (path : FilePath)
  /-- Stores the settings in files, laid over the defaults. -/
  | loadMerged (target : String) (paths : List FilePath)
  /-- Stores one builder laid over another. -/
  | merge (target lower upper : String)
  /-- Stores the settings of a configuration as a builder. -/
  | thaw (target config : String)
  | sanitize (builder : String)
  | edit (builder : String) (changes : Edit)
  /-- Stores the configuration that a builder amounts to. -/
  | freeze (target builder : String)
  /-- Stores the configuration in which nothing has been set. -/
  | bare (target : String)
  | makeFolder (path : FilePath)
  | write (path : FilePath) (data : Bytes)

/-- What a step comes to. -/
inductive Outcome [PatternReader] where
  | names (names : List String)
  /-- A builder that has been stored or changed; none for a file without settings. -/
  | builder (builder : Option Builder)
  | config (config : Config)
  | done

/-- Why a step is not done. -/
inductive StepError [PatternReader] where
  /-- There is no builder or configuration of that name. -/
  | unknownVariable (name : String)
  /-- The name is taken in the registry. -/
  | nameTaken (name : String)
  | pattern (error : PatternReader.Refusal)
  | load (error : LoadError)

/-- A registry, builders and configurations by name, and files. -/
structure Workspace [PatternReader] where
  registry : Registry
  builders : List (String × Builder)
  configs : List (String × Config)
  files : FileTree

namespace Workspace

section

variable [PatternReader]

def initial : Workspace := ⟨.initial, [], [], .empty⟩

def builder (workspace : Workspace) (name : String) : Except StepError Builder :=
  match workspace.builders.lookup name with
  | some builder => .ok builder
  | none => .error (.unknownVariable name)

def config (workspace : Workspace) (name : String) : Except StepError Config :=
  match workspace.configs.lookup name with
  | some config => .ok config
  | none => .error (.unknownVariable name)

def setBuilder (workspace : Workspace) (name : String) (builder : Builder) : Workspace :=
  { workspace with builders := (name, builder) :: workspace.builders }

def setConfig (workspace : Workspace) (name : String) (config : Config) : Workspace :=
  { workspace with configs := (name, config) :: workspace.configs }

def showBuilder (workspace : Workspace) (name : String) (builder : Builder) :
    Except StepError Outcome × Workspace :=
  (.ok (.builder (some builder)), workspace.setBuilder name builder)

variable [Toml.Reader]

def take (workspace : Workspace) (step : Step) : Except StepError Outcome × Workspace :=
  match step with
  | .register name subformat =>
    match workspace.registry.register name subformat with
    | some registry => (.ok (.names registry.names), { workspace with registry })
    | none => (.error (.nameTaken name), workspace)
  | .store target builder => workspace.showBuilder target builder
  | .readTable target file table => workspace.showBuilder target (.ofTable file table)
  | .loadFile target path =>
    match Builder.loadFile workspace.files path with
    | .ok (some builder) => workspace.showBuilder target builder
    | .ok none => (.ok (.builder none), workspace)
    | .error error => (.error (.load error), workspace)
  | .loadMerged target paths =>
    match Builder.loadMerged workspace.files paths with
    | .ok builder => workspace.showBuilder target builder
    | .error error => (.error (.load error), workspace)
  | .merge target lower upper =>
    match workspace.builder lower, workspace.builder upper with
    | .ok lower, .ok upper => workspace.showBuilder target (lower.merge upper)
    | .error error, _ => (.error error, workspace)
    | _, .error error => (.error error, workspace)
  | .thaw target config =>
    match workspace.config config with
    | .ok config => workspace.showBuilder target config.thaw
    | .error error => (.error error, workspace)
  | .sanitize name =>
    match workspace.builder name with
    | .ok builder => workspace.showBuilder name (builder.sanitize workspace.registry)
    | .error error => (.error error, workspace)
  | .edit name changes =>
    match workspace.builder name with
    | .ok builder => workspace.showBuilder name (builder.edit changes)
    | .error error => (.error error, workspace)
  | .freeze target name =>
    match workspace.builder name with
    | .ok builder =>
      let workspace := workspace.setBuilder name (builder.sanitize workspace.registry)
      match builder.freeze workspace.registry with
      | .ok config => (.ok (.config config), workspace.setConfig target config)
      | .error error => (.error (.pattern error), workspace)
    | .error error => (.error error, workspace)
  | .bare target => (.ok (.config .bare), workspace.setConfig target .bare)
  | .makeFolder path => (.ok .done, { workspace with files := workspace.files.makeFolder path })
  | .write path data => (.ok .done, { workspace with files := workspace.files.write path data })

def run (workspace : Workspace) (steps : List Step) : Workspace :=
  steps.foldl (fun workspace step => (workspace.take step).2) workspace

def reports (workspace : Workspace) (step : Step) : List Record :=
  match step with
  | .readTable _ file table => Builder.reports .empty (.ofTable file table)
  | .loadFile _ path =>
    match Builder.loadFile workspace.files path with
    | .ok (some builder) => Builder.reports .empty builder
    | _ => []
  | .loadMerged _ paths => Builder.loadReports workspace.files paths
  | .sanitize name | .freeze _ name =>
    match workspace.builder name with
    | .ok builder => builder.reports (builder.sanitize workspace.registry)
    | .error _ => []
  | _ => []

end

end Workspace

end ResourceLiterals.Settings
