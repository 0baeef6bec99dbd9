import ResourceLiterals.Literal.StringLayout
import ResourceLiterals.Subformat.Integer
import ResourceLiterals.Subformat.Lines

/-!
# Values of resources

A subformat says what the content of a resource means and how it is written as a literal.  There
are three kinds: the bytes as they are, the lines of a text, and a decimal integer.

* `Kind.parse` reads a content, `Value.toBytes` is the way back.
* `Value.doc` is the layout of a value as a literal.
* `Kind.info` holds the names that go with a literal.
-/

namespace ResourceLiterals

open Layout (Doc)
open Log (Record)

/-- Where a resource is found: the names of the folders and its own. -/
abbrev ResourcePath := List String

/-- A resource path as one text. -/
def ResourcePath.format (path : ResourcePath) : String :=
  "/".intercalate path

namespace Subformat

/-- What the content of a resource may mean. -/
inductive Value where
  | bytes (data : Bytes)
  | list (elements : List Bytes)
  | int (value : Int)
deriving DecidableEq, Repr

/-- The kinds of subformat. -/
inductive Kind where
  | raw
  | lines
  | int
deriving DecidableEq, Repr

/-- The names that go with a literal: of its subformat, its type and its module. -/
structure Info where
  name : String
  typeName : String
  modName : String
deriving DecidableEq, Repr

/-- The module that holds the subformats when generated code runs. -/
def runtimeModule : String := "EmbedresSubformats"

/-- The names that go with the literals of a kind. -/
def Kind.info : Kind → Info
  | .raw => ⟨"raw", "string", runtimeModule ++ ".Raw"⟩
  | .lines => ⟨"lines", "string list", runtimeModule ++ ".Lines"⟩
  | .int => ⟨"int", "int", runtimeModule ++ ".Int"⟩

/-- A content that a subformat does not accept. -/
structure ParseError where
  path : ResourcePath
  subformat : String
  reason : String
deriving DecidableEq, Repr

/-- The path as it is shown in messages, where the empty one is called the root. -/
def shownPath (path : ResourcePath) : String :=
  if path.format = "" then "<root>" else path.format

def ParseError.message (error : ParseError) : String :=
  shownPath error.path ++ ": cannot parse as " ++ error.subformat ++ ": " ++ error.reason

/-- Reads the content of a resource. -/
def Kind.parse (kind : Kind) (path : ResourcePath) (data : Bytes) : Except ParseError Value :=
  match kind with
  | .raw => .ok (.bytes data)
  | .lines => .ok (.list (splitLines data))
  | .int => ((readContent data).map .int).mapError fun fault => ⟨path, "int", fault.reason⟩

/-- The content that has the given meaning. -/
def Value.toBytes : Value → Bytes
  | .bytes data => data
  | .list elements => joinLines elements
  | .int value => writeContent value

/-- The layout of a value as a literal that starts at `column`, in lines of about `width`. -/
def Value.doc (column width : Int) : Value → Doc
  | .bytes data => Literal.stringDoc column width data
  | .list elements => Literal.listDoc width elements
  | .int value => .text (decimal value)

def Value.docReports (column width : Int) (path : ResourcePath) : Value → List Record
  | .bytes data =>
    let manner := if Literal.looksLikeText data then "text" else "hex blob"
    ⟨.debug, s!"raw: rendering {path.format} ({data.length} bytes) as {manner}"⟩ ::
      Literal.stringReports column width data
  | .list _ => []
  | .int _ => []

end Subformat

end ResourceLiterals
