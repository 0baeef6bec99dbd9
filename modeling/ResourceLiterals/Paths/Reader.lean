/-!
# Readers of path patterns

What a list of patterns selects is up to a reader of patterns.  Configurations take the reader as
given, so what is said about them holds whatever patterns mean and whichever of them are refused.
-/

namespace ResourceLiterals.Paths

/-- A reader of path patterns. -/
class PatternReader where
  /-- What comes of reading a list of patterns. -/
  Filter : Type
  /-- Why a list of patterns is refused. -/
  Refusal : Type
  read (patterns : List String) : Except Refusal Filter
  /-- Whether the patterns select a path. -/
  selects (filter : Filter) (path : String) : Bool

end ResourceLiterals.Paths
