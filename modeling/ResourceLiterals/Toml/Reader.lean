import ResourceLiterals.Toml.Value

/-!
# Readers of TOML

A text is turned into a table by a reader of TOML.  Loading settings takes the reader as given.
-/

namespace ResourceLiterals.Toml

/-- Why a text is no TOML document. -/
inductive Fault where
  | malformed
  | repeatedKey
  /-- A table that has a header is also filled by dotted keys from outside. -/
  | redefinedTable
deriving DecidableEq, Repr

/-- A reader of TOML texts whose lines all end with a line feed. -/
class Reader where
  read (chars : List Char) : Except Fault Table

end ResourceLiterals.Toml
