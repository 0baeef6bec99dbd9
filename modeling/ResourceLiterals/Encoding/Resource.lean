import ResourceLiterals.Literal.IntegerReader
import ResourceLiterals.Literal.ListReader
import ResourceLiterals.Settings.Config

/-!
# Encoding resources

From the path and the content of a resource to the literal that stands for it in generated code.

* `select` chooses the subformat, from the patterns of the configuration or its default.
* `encodeWith` encodes a resource in a given subformat, `encode` in the chosen one.
* `encodeAll` encodes many resources and keeps those that fail apart.
* `roundTrips` compares a content with what its meaning is written back as.
* `decode` reads a literal back.

Next to each of them stands a function that says what there is to report about it.  Patterns select
paths through the `PatternReader` of the configuration.
-/

namespace ResourceLiterals.Encoding

open Layout (Doc)
open Log (Record)
open Paths (PatternReader)
open Settings (Config)
open Subformat (Info Kind ParseError UnknownName Value)

variable [PatternReader]

/-! ## Choosing a subformat -/

/-- The first name, in order, whose patterns select the path. -/
def matchingName? (registry : Registry) (config : Config) (path : ResourcePath) : Option String :=
  registry.names.find? fun name => (config.filter? name).any (PatternReader.selects · path.format)

def chosenName (registry : Registry) (config : Config) (path : ResourcePath) : String :=
  (matchingName? registry config path).getD config.default

def select (registry : Registry) (config : Config) (path : ResourcePath) :
    Except UnknownName Subformat :=
  registry.get (chosenName registry config path)

def selectReports (registry : Registry) (config : Config) (path : ResourcePath) : List Record :=
  (match matchingName? registry config path with
  | some name =>
    [⟨.debug, s!"Resource {path.format} matches patterns of subformat '" ++ name ++ "'"⟩]
  | none => []) ++
    registry.getReports (chosenName registry config path)
/-! ## One resource -/

/-- A resource with the literal that stands for it. -/
structure Resource where
  path : ResourcePath
  info : Info
  text : String
  /-- What goes before the definition, if anything. -/
  header : Option String
  /-- What goes after the definition, if anything. -/
  footer : Option String
deriving DecidableEq, Repr

/-- Why a resource is not encoded. -/
inductive EncodeError where
  | parse (error : ParseError)
  | unknownSubformat (error : UnknownName)
deriving DecidableEq, Repr

def encodeWith (subformat : Subformat) (config : Config) (path : ResourcePath) (data : Bytes) :
    Except ParseError Resource := do
  let value ← subformat.kind.parse path data
  return {
    path
    info := subformat.kind.info
    text := Layout.render (value.doc config.column config.width) config.width
    header := (subformat.header path value).map (Layout.render · config.width)
    footer := (subformat.footer path value).map (Layout.render · config.width) }

def encodeWithReports (subformat : Subformat) (config : Config) (path : ResourcePath)
    (data : Bytes) : List Record :=
  match subformat.kind.parse path data with
  | .error _ => []
  | .ok value =>
    let name := subformat.kind.info.name
    ⟨.debug, s!"Encoding {path.format} ({data.length} bytes) with subformat '" ++ name ++ "'"⟩ ::
      value.docReports config.column config.width path ++
      Layout.renderReports (value.doc config.column config.width) config.width ++
      (subformat.header path value).toList.flatMap (Layout.renderReports · config.width) ++
      (subformat.footer path value).toList.flatMap (Layout.renderReports · config.width)

def encode (registry : Registry) (config : Config) (path : ResourcePath) (data : Bytes) :
    Except EncodeError Resource :=
  match select registry config path with
  | .error error => .error (.unknownSubformat error)
  | .ok subformat => (encodeWith subformat config path data).mapError .parse

def encodeReports (registry : Registry) (config : Config) (path : ResourcePath) (data : Bytes) :
    List Record :=
  selectReports registry config path ++
    match select registry config path with
    | .error _ => []
    | .ok subformat => encodeWithReports subformat config path data

/-! ## Many resources -/

/-- What has become of many resources: those that were encoded and those whose content was not
accepted, each in the order in which they were given. -/
structure Report where
  encoded : List Resource
  failures : List ParseError
deriving DecidableEq, Repr

def Report.ok (report : Report) : Bool := report.failures.isEmpty

/-- Encodes resources one after the other.  Only a subformat that is not known ends the run. -/
def encodeAll (registry : Registry) (config : Config) :
    List (ResourcePath × Bytes) → Except UnknownName Report
  | [] => .ok ⟨[], []⟩
  | (path, data) :: items =>
    match encode registry config path data with
    | .error (.unknownSubformat error) => .error error
    | .error (.parse error) => do
      let report ← encodeAll registry config items
      return { report with failures := error :: report.failures }
    | .ok resource => do
      let report ← encodeAll registry config items
      return { report with encoded := resource :: report.encoded }

/-- What there is to report about the single resources, up to one that ends the run. -/
def itemReports (registry : Registry) (config : Config) :
    List (ResourcePath × Bytes) → List Record
  | [] => []
  | (path, data) :: items =>
    encodeReports registry config path data ++
      match encode registry config path data with
      | .error (.unknownSubformat _) => []
      | .error (.parse error) =>
        ⟨.error, s!"Skipping resource {path.format}: {error.message}"⟩ ::
          itemReports registry config items
      | .ok _ => itemReports registry config items

def encodeAllReports (registry : Registry) (config : Config) (items : List (ResourcePath × Bytes)) :
    List Record :=
  itemReports registry config items ++
    match encodeAll registry config items with
    | .error _ => []
    | .ok report =>
      let encoded := report.encoded.length
      let failed := report.failures.length
      [⟨.info, s!"Encoded {encoded} resource(s), {failed} failure(s)"⟩]

/-! ## There and back -/

/-- Whether a content is what its meaning is written back as. -/
def roundTrips (kind : Kind) (path : ResourcePath) (data : Bytes) : Except ParseError Bool := do
  let value ← kind.parse path data
  return value.toBytes == data

/-- What there is to report about a content that is not what its meaning is written back as. -/
def roundTripReports (subformat : Subformat) (path : ResourcePath) (data : Bytes) : List Record :=
  match roundTrips subformat.kind path data with
  | .ok false =>
    let name := subformat.display
    [⟨.info, s!"Round-trip mismatch for {path.format} with subformat {name}"⟩]
  | _ => []

/-- Why a literal is not read back. -/
inductive DecodeError where
  /-- It is no literal of its type. -/
  | malformed (error : Literal.ReadError)
  /-- It is an integer with so many digits, more than are converted. -/
  | tooLong (digits : Nat)
  /-- No literals of such a type can be read. -/
  | noReader (typeName : String)
deriving DecidableEq, Repr

def noReaderMessage (typeName : String) : String :=
  "No literal reader for type '" ++ typeName ++ "'"

/-- Reads a literal of the type with a given name. -/
def decode (typeName : String) (text : String) : Except DecodeError Value :=
  if typeName = Kind.raw.info.typeName then
    ((Literal.parseString text).map .bytes).mapError .malformed
  else if typeName = Kind.lines.info.typeName then
    ((Literal.parseList text).map .list).mapError .malformed
  else if typeName = Kind.int.info.typeName then
    match Literal.parseInteger text with
    | .ok value => .ok (.int value)
    | .error (.malformed error) => .error (.malformed error)
    | .error (.tooLong digits) => .error (.tooLong digits)
  else
    .error (.noReader typeName)

end ResourceLiterals.Encoding
