import ResourceLiterals.Settings.Config
import ResourceLiterals.Toml.Value

/-!
# Settings in TOML

Which keys of a TOML table are settings, and what happens to values of the wrong type: they are
passed over with a diagnostic.  Sections that are no tables are passed over in silence.

* `Builder.ofTable` takes the settings out of a table.
* `defaultTable` is the table of the settings that hold by default.
-/

namespace ResourceLiterals.Settings

open Toml (Table Value)

/-! ## Keys -/

/-- The section on the layout. -/
def renderSection : String := "render"
/-- The width of lines, in the section on the layout. -/
def widthKey : String := "width"
/-- The column at which literals start, in the section on the layout. -/
def columnKey : String := "column"
/-- The section on the choice of subformats. -/
def subformatsSection : String := "subformats"
/-- The default, in the section on subformats. -/
def defaultKey : String := "default"
/-- The patterns, in the section on subformats. -/
def patternsKey : String := "patterns"

/-- The settings that hold by default, as a table. -/
def defaultTable : Table :=
  [(renderSection,
      .table [(widthKey, .integer defaultWidth), (columnKey, .integer defaultColumn)]),
    (subformatsSection,
      .table [(defaultKey, .string defaultSubformat), (patternsKey, .table [])])]

/-! ## Reading -/

/-- The table under a key; nothing when there is something else. -/
def sectionOf (table : Table) (key : String) : Table :=
  match table.find? key with
  | some (.table entries) => entries
  | _ => []

/-- A list of strings. -/
def strings? : Value → Option (List String)
  | .array items => items.mapM fun item =>
    match item with
    | .string text => some text
    | _ => none
  | _ => none

namespace Builder

/-- What is said about a layout setting that is no integer. -/
def notIntegerMessage (source key : String) : String :=
  source ++ ": [" ++ renderSection ++ "] " ++ key ++ " must be an integer"

/-- What is said about a default that is no string. -/
def notStringMessage (source : String) : String :=
  source ++ ": [" ++ subformatsSection ++ "] " ++ defaultKey ++ " must be a string"

/-- What is said about patterns that are no list of strings. -/
def notStringsMessage (source name : String) : String :=
  source ++ ": patterns for subformat '" ++ name ++ "' must be a list of strings"

/-- Takes the width out of the section on the layout. -/
def readWidth (source : String) (render : Table) (builder : Builder) : Builder :=
  match render.find? widthKey with
  | none => builder
  | some (.integer width) => { builder with width := some width }
  | some _ => builder.warn (notIntegerMessage source widthKey)

/-- Takes the column out of the section on the layout. -/
def readColumn (source : String) (render : Table) (builder : Builder) : Builder :=
  match render.find? columnKey with
  | none => builder
  | some (.integer column) => { builder with column := some column }
  | some _ => builder.warn (notIntegerMessage source columnKey)

/-- Takes the default out of the section on subformats. -/
def readDefault (source : String) (subformats : Table) (builder : Builder) : Builder :=
  match subformats.find? defaultKey with
  | none | some .null => builder
  | some (.string name) => { builder with default := some name }
  | some _ => builder.warn (notStringMessage source)

/-- Takes the patterns of one name. -/
def readPatterns (source : String) (builder : Builder) (entry : String × Value) : Builder :=
  match strings? entry.2 with
  | some patterns => { builder with patterns := builder.patterns.set entry.1 patterns }
  | none => builder.warn (notStringsMessage source entry.1)

/-- The settings in a table, which comes from a file unless it is that of the defaults. -/
def ofTable (file : Option String) (table : Table) : Builder :=
  let source := file.getD "<defaults>"
  let render := sectionOf table renderSection
  let subformats := sectionOf table subformatsSection
  let builder := { empty with files := file.toList }
  let builder := readColumn source render (readWidth source render builder)
  let builder := readDefault source subformats builder
  (sectionOf subformats patternsKey).foldl (readPatterns source) builder

/-- The settings that hold by default. -/
def ofDefaults : Builder := ofTable none defaultTable

end Builder

end ResourceLiterals.Settings
