import ResourceLiterals.Paths.Reader
import ResourceLiterals.Settings.PatternMap
import ResourceLiterals.Subformat.Registry

/-!
# Configurations

How literals are laid out and which subformat goes with which resource.  A `Builder` collects the
settings while they are loaded and merged, and leaves open what has not been set; a `Config` is what
comes of it, with every setting in place and the patterns read.

* `Builder.merge` lays one builder over another.
* `Builder.sanitize` drops what makes no sense and says so in the diagnostics.
* `Builder.freeze` makes a configuration, `Config.thaw` goes back.

The patterns are read by a `PatternReader`, which stays a parameter.
-/

namespace ResourceLiterals.Settings

open Log (Record)
open Paths (PatternReader)

def defaultWidth : Int := 80
def defaultColumn : Int := 0
def defaultSubformat : String := "raw"

/-- Settings that are being collected. -/
structure Builder where
  width : Option Int
  column : Option Int
  /-- The subformat of resources that no pattern selects. -/
  default : Option String
  patterns : PatternMap
  files : List String
  diagnostics : List String
deriving DecidableEq

/-- Settings that are complete. -/
structure Config [PatternReader] where
  width : Int
  column : Int
  /-- The subformat of resources that no pattern selects. -/
  default : String
  patterns : PatternMap
  files : List String
  diagnostics : List String
  /-- The patterns as they have been read, for the names that have any. -/
  filters : List (String × PatternReader.Filter)

/-! ## Builders -/

namespace Builder

def empty : Builder := ⟨none, none, none, .empty, [], []⟩

def warn (builder : Builder) (message : String) : Builder :=
  { builder with diagnostics := builder.diagnostics ++ [message] }

/-- The settings of `upper` on top of those of `lower`.  The empty name counts as not set. -/
def merge (lower upper : Builder) : Builder where
  width := upper.width.or lower.width
  column := upper.column.or lower.column
  default := (upper.default.filter (· ≠ "")).or lower.default
  patterns := lower.patterns.merge upper.patterns
  files := lower.files ++ upper.files
  diagnostics := lower.diagnostics ++ upper.diagnostics

def sanitizeWidth (builder : Builder) : Builder :=
  match builder.width with
  | some width =>
    if width ≤ 0 then
      { builder.warn s!"Invalid width {width}; using {defaultWidth}" with width := none }
    else builder
  | none => builder

def sanitizeColumn (builder : Builder) : Builder :=
  match builder.column with
  | some column =>
    if column < 0 then
      { builder.warn s!"Invalid column {column}; using {defaultColumn}" with column := none }
    else builder
  | none => builder

def sanitizeDefault (registry : Registry) (builder : Builder) : Builder :=
  match builder.default with
  | some name =>
    if registry.contains name then builder
    else
      { builder.warn ("Unknown default subformat '" ++ name ++ "'; using '" ++ defaultSubformat ++
          "'") with default := none }
  | none => builder

def unknownPatternsMessage (name : String) : String :=
  "Ignoring patterns for unknown subformat '" ++ name ++ "'"

def sanitizePatterns (registry : Registry) (builder : Builder) : Builder :=
  { builder with
    patterns := builder.patterns.filter registry.contains
    diagnostics := builder.diagnostics ++
      (builder.patterns.names.filter (!registry.contains ·)).map unknownPatternsMessage }

/-- Gives up all settings that make no sense, with a diagnostic for each. -/
def sanitize (registry : Registry) (builder : Builder) : Builder :=
  ((builder.sanitizeWidth.sanitizeColumn).sanitizeDefault registry).sanitizePatterns registry

end Builder

/-! ## Configurations -/

section Configurations

variable [PatternReader]

/-- Reads the patterns of all names that have any. -/
def readFilters (patterns : PatternMap) :
    Except PatternReader.Refusal (List (String × PatternReader.Filter)) :=
  (patterns.entries.filter (!·.2.isEmpty)).mapM fun (name, lines) => do
    return (name, ← PatternReader.read lines)

namespace Config

def bare : Config :=
  ⟨defaultWidth, defaultColumn, defaultSubformat, .empty, [], [], []⟩

/-- The patterns that select a subformat, if it has any. -/
def filter? (config : Config) (name : String) : Option PatternReader.Filter :=
  config.filters.lookup name

/-- The settings of a configuration, to be changed. -/
def thaw (config : Config) : Builder where
  width := some config.width
  column := some config.column
  default := some config.default
  patterns := config.patterns
  files := config.files
  diagnostics := config.diagnostics

def same (first second : Config) : Bool :=
  first.thaw = second.thaw

end Config

namespace Builder

/-- The configuration with the settings as they are, and defaults for those that are not set. -/
def toConfig (builder : Builder) : Except PatternReader.Refusal Config := do
  let patterns := builder.patterns.sorted
  let filters ← readFilters patterns
  return {
    width := builder.width.getD defaultWidth
    column := builder.column.getD defaultColumn
    default := (builder.default.filter (· ≠ "")).getD defaultSubformat
    patterns
    files := builder.files
    diagnostics := builder.diagnostics
    filters }

/-- The configuration that the settings amount to. -/
def freeze (registry : Registry) (builder : Builder) : Except PatternReader.Refusal Config :=
  (builder.sanitize registry).toConfig

end Builder

end Configurations

/-- What there is to report about settings that have grown out of `before`: their new
diagnostics. -/
def Builder.reports (before after : Builder) : List Record :=
  (after.diagnostics.drop before.diagnostics.length).map (⟨.warning, ·⟩)

end ResourceLiterals.Settings
