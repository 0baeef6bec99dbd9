import ResourceLiterals.Literal.Escape
import ResourceLiterals.Toml.Reader

/-!
# Reading TOML from bytes

The content of a TOML file is UTF-8, with line ends of any of the three usual kinds.  A text that
cannot be read counts as an empty table; a table with conflicting entries and bytes that are no
UTF-8 do not.  What a text stands for is up to a reader of TOML.
-/

namespace ResourceLiterals.Toml

/-- Why the content of a file gives no table, not even an empty one. -/
inductive LoadError where
  | notUtf8
  | repeatedKey
  | redefinedTable
deriving DecidableEq, Repr

/-- A text with line feeds for all of its line ends. -/
def unifyLineEnds : List Char → List Char
  | '\r' :: '\n' :: rest => '\n' :: unifyLineEnds rest
  | '\r' :: rest => '\n' :: unifyLineEnds rest
  | c :: rest => c :: unifyLineEnds rest
  | [] => []

/-- The table that a content stands for. -/
def load [Reader] (data : Bytes) : Except LoadError Table :=
  match String.fromUTF8? ⟨data.toArray⟩ with
  | none => .error .notUtf8
  | some text =>
    match Reader.read (unifyLineEnds text.toList) with
    | .ok table => .ok table
    | .error .malformed => .ok []
    | .error .repeatedKey => .error .repeatedKey
    | .error .redefinedTable => .error .redefinedTable

end ResourceLiterals.Toml
