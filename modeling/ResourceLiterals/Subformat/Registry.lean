import ResourceLiterals.Subformat.Value

/-!
# The registry of subformats

Subformats are looked up by name.  The three built-in ones are always there; others can be added
under names that are not taken yet, and stay.

The built-in subformats are registered when a name is looked up for the first time.  A `Registry` is
the state after that, also at the start of a run of steps.  Nothing is said about what is registered
before the first look-up.

* `Subformat` is one of the kinds, possibly with documents that go before and after a resource.
* `Registry.find?` looks a name up, `Registry.register` adds one.
* `Registry.names` lists the names in the order of their code points.
-/

namespace ResourceLiterals

open Layout (Doc)
open Log (Record)

/-- What a name in the registry stands for. -/
structure Subformat where
  kind : Subformat.Kind
  /-- Whether it was added to the built-in ones. -/
  custom : Bool
  /-- What goes before the definition of a resource with a given path and value. -/
  header : ResourcePath → Subformat.Value → Option Doc
  /-- What goes after it. -/
  footer : ResourcePath → Subformat.Value → Option Doc

/-- The built-in subformat of a kind. -/
def Subformat.builtIn (kind : Subformat.Kind) : Subformat :=
  ⟨kind, false, fun _ _ => none, fun _ _ => none⟩

/-- The text by which a subformat is shown. -/
def Subformat.display (subformat : Subformat) : String :=
  if subformat.custom then
    "Custom()"
  else
    match subformat.kind with
    | .raw => "RawSubFormat()"
    | .lines => "LinesSubFormat()"
    | .int => "IntSubFormat()"

/-- The subformats that were added, in order, next to the built-in ones. -/
structure Registry where
  added : List (String × Subformat)

namespace Registry

/-- The registry with nothing but the built-in subformats. -/
def initial : Registry := ⟨[]⟩

/-- The subformats that are always there. -/
def builtIns : List (String × Subformat) :=
  [("int", .builtIn .int), ("lines", .builtIn .lines), ("raw", .builtIn .raw)]

/-- All subformats with their names, in the order in which they came in. -/
def entries (registry : Registry) : List (String × Subformat) :=
  builtIns ++ registry.added

def find? (registry : Registry) (name : String) : Option Subformat :=
  registry.entries.lookup name

def contains (registry : Registry) (name : String) : Bool :=
  (registry.find? name).isSome

def names (registry : Registry) : List String :=
  (registry.entries.map Prod.fst).mergeSort (· ≤ ·)

/-- Adds a subformat; a name that is taken is refused. -/
def register (registry : Registry) (name : String) (subformat : Subformat) : Option Registry :=
  if registry.contains name then none else some ⟨registry.added ++ [(name, subformat)]⟩

def takenMessage (name : String) : String :=
  "Subformat '" ++ name ++ "' is already registered."

end Registry

namespace Subformat

/-- A name that nothing is registered under, with the names that are known. -/
structure UnknownName where
  name : String
  known : List String
deriving DecidableEq, Repr

def UnknownName.message (error : UnknownName) : String :=
  let hint := if error.known.isEmpty then "" else " (known: " ++ ", ".intercalate error.known ++ ")"
  "Unknown subformat: " ++ error.name ++ hint

end Subformat

namespace Registry

/-- The subformat of a name, or which names there are instead. -/
def get (registry : Registry) (name : String) : Except Subformat.UnknownName Subformat :=
  match registry.find? name with
  | some subformat => .ok subformat
  | none => .error ⟨name, registry.names⟩

def getReports (registry : Registry) (name : String) : List Record :=
  if registry.contains name then []
  else [⟨.warning, "Subformat '" ++ name ++ "' is not registered"⟩]

end Registry

end ResourceLiterals
