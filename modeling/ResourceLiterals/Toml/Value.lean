/-!
# TOML values

What a TOML text stands for: scalars, arrays and tables, where the entries of a table keep the order
in which they were written.  A table that is handed in by a program may also hold nothing at all
under a key.
-/

namespace ResourceLiterals.Toml

inductive Value where
  /-- The absence of a value, which no text produces. -/
  | null
  | boolean (value : Bool)
  | integer (value : Int)
  | float (value : Float)
  | string (value : String)
  /-- A date, a time or both, as its ISO text. -/
  | moment (text : String)
  | array (items : List Value)
  | table (entries : List (String × Value))

abbrev Table := List (String × Value)

namespace Table

def find? (table : Table) (key : String) : Option Value :=
  List.lookup key table

/-- Puts a value under a key; one that is already there keeps its place. -/
def put (key : String) (value : Value) : Table → Table
  | [] => [(key, value)]
  | (other, old) :: rest =>
    if other = key then (key, value) :: rest else (other, old) :: put key value rest

/-- The table with the given entries, of which the last one under a key counts. -/
def ofEntries (entries : List (String × Value)) : Table :=
  entries.foldl (fun table (key, value) => put key value table) []

end Table

end ResourceLiterals.Toml
