import ResourceLiterals.Proofs.Settings.Sanitize
import ResourceLiterals.Settings.FromToml

/-!
# The settings in a table

What a TOML table says about each setting, and in one equation what is read from it.  A value of the
wrong type says nothing, and neither does a section that is no table.

* `integerIn?`, `defaultIn?` and `patternsIn` are what a table says, `mistakesIn` what it says in
  the wrong way.
* `Builder.ofTable_eq` says that this is what is read, from the readers of the single settings.
-/

namespace ResourceLiterals.Settings

open Toml (Table Value)

/-! ## What a table says -/

def integer? : Value → Option Int
  | .integer value => some value
  | _ => none

def text? : Value → Option String
  | .string text => some text
  | _ => none

/-- Whether a value may stand where the default is named. -/
def mayNameDefault : Value → Bool
  | .null | .string _ => true
  | _ => false

/-- The integer under a key of the layout. -/
def integerIn? (table : Table) (key : String) : Option Int :=
  ((sectionOf table "render").find? key).bind integer?

def defaultIn? (table : Table) : Option String :=
  ((sectionOf table "subformats").find? "default").bind text?

/-- The values that are given as patterns, by name. -/
def patternValues (table : Table) : Table :=
  sectionOf (sectionOf table "subformats") "patterns"

/-- The lists of patterns, by name. -/
def patternsIn (table : Table) : List (String × List String) :=
  (patternValues table).filterMap fun entry => (strings? entry.2).map (entry.1, ·)

namespace Builder

/-- One diagnostic for each setting whose value is of the wrong type. -/
def mistakesIn (source : String) (table : Table) : List String :=
  let integerMistakes (key : String) :=
    complaint (integer? · |>.isSome) (fun _ => notIntegerMessage source key)
      ((sectionOf table "render").find? key)
  integerMistakes "width" ++ integerMistakes "column" ++
    complaint mayNameDefault (fun _ => notStringMessage source)
      ((sectionOf table "subformats").find? "default") ++
    ((patternValues table).filter (strings? ·.2 |>.isNone)).map (notStringsMessage source ·.1)

/-! ## What is read -/

variable (source : String) (builder : Builder)

theorem readWidth_eq (render : Table) :
    readWidth source render builder = { builder with
      width := ((render.find? widthKey).bind integer?).or builder.width
      diagnostics := builder.diagnostics ++ complaint (integer? · |>.isSome)
        (fun _ => notIntegerMessage source widthKey) (render.find? widthKey) } := by
  rw [readWidth]
  cases render.find? widthKey with
  | none => simp [complaint]
  | some value => cases value <;> simp [complaint, integer?, warn]

theorem readColumn_eq (render : Table) :
    readColumn source render builder = { builder with
      column := ((render.find? columnKey).bind integer?).or builder.column
      diagnostics := builder.diagnostics ++ complaint (integer? · |>.isSome)
        (fun _ => notIntegerMessage source columnKey) (render.find? columnKey) } := by
  rw [readColumn]
  cases render.find? columnKey with
  | none => simp [complaint]
  | some value => cases value <;> simp [complaint, integer?, warn]

theorem readDefault_eq (subformats : Table) :
    readDefault source subformats builder = { builder with
      default := ((subformats.find? defaultKey).bind text?).or builder.default
      diagnostics := builder.diagnostics ++ complaint mayNameDefault
        (fun _ => notStringMessage source) (subformats.find? defaultKey) } := by
  rw [readDefault]
  cases subformats.find? defaultKey with
  | none => simp [complaint]
  | some value => cases value <;> simp [complaint, mayNameDefault, text?, warn]

theorem foldl_readPatterns_eq (entries : Table) :
    entries.foldl (readPatterns source) builder = { builder with
      patterns := builder.patterns.setAll
        (entries.filterMap fun entry => (strings? entry.2).map (entry.1, ·))
      diagnostics := builder.diagnostics ++
        (entries.filter (strings? ·.2 |>.isNone)).map (notStringsMessage source ·.1) } := by
  induction entries generalizing builder with
  | nil => simp
  | cons entry rest ih =>
    rw [List.foldl_cons, ih, readPatterns]
    cases hstrings : strings? entry.2 with
    | none => simp [hstrings, warn]
    | some patterns => simp [hstrings]

theorem ofTable_eq (file : Option String) (table : Table) :
    ofTable file table = {
      width := integerIn? table "width"
      column := integerIn? table "column"
      default := defaultIn? table
      patterns := .ofEntries (patternsIn table)
      files := file.toList
      diagnostics := mistakesIn (file.getD "<defaults>") table } := by
  rw [ofTable, foldl_readPatterns_eq, readDefault_eq, readColumn_eq, readWidth_eq]
  simp only [empty, Option.or_none, List.nil_append]
  rfl

end Builder

end ResourceLiterals.Settings
