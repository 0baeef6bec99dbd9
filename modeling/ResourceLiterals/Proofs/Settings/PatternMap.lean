import ResourceLiterals.Proofs.Entries
import ResourceLiterals.Settings.PatternMap

/-!
# What pattern maps hold

A pattern map is given by its names, in the order in which they came in, and by what is found under
each.  The operations on maps are described by what they do to these two.

* `find?_setAll` and `find?_merge`: of several patterns for one name the last ones count.
* `names_setAll`: a name keeps the place that it had first.
* `merge_setAll`: setting names after a merge is the same as setting them in the upper map.
* `find?_filter`, `find?_sorted` and their kin are about the names that are kept, and their order.
-/

namespace ResourceLiterals.Settings

theorem lookup_setEntry (name : String) (patterns : List String)
    (entries : List (String × List String)) (other : String) :
    (setEntry name patterns entries).lookup other =
      if other = name then some patterns else entries.lookup other := by
  induction entries with
  | nil => rw [setEntry, lookup_cons_eq]
  | cons entry rest ih =>
    rw [setEntry]
    by_cases hname : entry.1 = name
    · rw [if_pos hname, lookup_cons_eq, lookup_cons_eq, hname]
      split <;> rfl
    · rw [if_neg hname, lookup_cons_eq, lookup_cons_eq, ih]
      by_cases hother : other = entry.1
      · rw [if_pos hother, if_pos hother, if_neg (hother ▸ hname)]
      · rw [if_neg hother, if_neg hother]

theorem names_setEntry (name : String) (patterns : List String)
    (entries : List (String × List String)) :
    (setEntry name patterns entries).map Prod.fst =
      if name ∈ entries.map Prod.fst then entries.map Prod.fst
      else entries.map Prod.fst ++ [name] := by
  induction entries with
  | nil => rfl
  | cons entry rest ih =>
    rw [setEntry]
    by_cases hname : entry.1 = name
    · simp [hname]
    · have hne : name ≠ entry.1 := fun h => hname h.symm
      simp only [if_neg hname, List.map_cons, ih, List.mem_cons, hne, false_or]
      split <;> rfl

/-- Setting a name for the second time makes up for the first. -/
theorem setEntry_setEntry (name : String) (before patterns : List String)
    (entries : List (String × List String)) :
    setEntry name patterns (setEntry name before entries) = setEntry name patterns entries := by
  induction entries with
  | nil => simp [setEntry]
  | cons entry rest ih =>
    by_cases hname : entry.1 = name
    · simp [setEntry, hname]
    · simp [setEntry, hname, ih]

/-- A name that has its place already may be set before or after another one. -/
theorem setEntry_comm {name other : String} {entries : List (String × List String)}
    (hmem : name ∈ entries.map Prod.fst) (hne : other ≠ name) (patterns others : List String) :
    setEntry name patterns (setEntry other others entries) =
      setEntry other others (setEntry name patterns entries) := by
  induction entries with
  | nil => simp at hmem
  | cons entry rest ih =>
    rw [List.map_cons, List.mem_cons] at hmem
    by_cases hname : entry.1 = name
    · have hother : entry.1 ≠ other := fun h => hne (h.symm.trans hname)
      simp [setEntry, hname, hne.symm]
    · have hrest : name ∈ rest.map Prod.fst := hmem.resolve_left fun h => hname h.symm
      by_cases hother : entry.1 = other
      · simp [setEntry, hother, hne]
      · simp [setEntry, hname, hother, ih hrest]

namespace PatternMap

variable {map lower upper first second : PatternMap} {name : String}

theorem eq_of_entries_eq (h : first.entries = second.entries) : first = second := by
  obtain ⟨_, _⟩ := first
  obtain ⟨_, _⟩ := second
  obtain rfl := h
  rfl

theorem isSome_find?_iff : (map.find? name).isSome = true ↔ name ∈ map.names :=
  isSome_lookup_iff

theorem find?_eq_some_iff {patterns : List String} :
    map.find? name = some patterns ↔ (name, patterns) ∈ map.entries :=
  lookup_eq_some_iff_mem map.nodup

theorem entries_eq_map_names (map : PatternMap) :
    map.entries = map.names.map fun name => (name, (map.find? name).getD []) := by
  have hentry : ∀ entry ∈ map.entries, (entry.1, (map.find? entry.1).getD []) = entry := by
    intro entry hmem
    rw [find?_eq_some_iff.mpr hmem, Option.getD_some]
  rw [names, List.map_map]
  exact ((List.map_congr_left hentry).trans (List.map_id _)).symm

/-- A map is given by its names, in their order, and by what is found under each. -/
theorem eq_of_find?_eq (hnames : first.names = second.names)
    (hfind : ∀ name, first.find? name = second.find? name) : first = second := by
  apply eq_of_entries_eq
  simp only [entries_eq_map_names, hnames, hfind]

/-! ## Setting and merging -/

@[simp] theorem setAll_nil (map : PatternMap) : map.setAll [] = map := rfl

@[simp] theorem setAll_cons (map : PatternMap) (entry : String × List String)
    (entries : List (String × List String)) :
    map.setAll (entry :: entries) = (map.set entry.1 entry.2).setAll entries := rfl

theorem setAll_append (map : PatternMap) (former latter : List (String × List String)) :
    map.setAll (former ++ latter) = (map.setAll former).setAll latter :=
  List.foldl_append

theorem find?_set (map : PatternMap) (name : String) (patterns : List String) (other : String) :
    (map.set name patterns).find? other =
      if other = name then some patterns else map.find? other :=
  lookup_setEntry name patterns map.entries other

/-- The last patterns for a name count, and those in the map only if there are none. -/
theorem find?_setAll (map : PatternMap) (entries : List (String × List String)) (name : String) :
    (map.setAll entries).find? name = (entries.reverse.lookup name).or (map.find? name) := by
  induction entries generalizing map with
  | nil => rfl
  | cons entry rest ih =>
    rw [setAll_cons, ih, find?_set, List.reverse_cons, List.lookup_append, lookup_cons_eq,
      Option.or_assoc]
    split <;> simp

theorem find?_merge (lower upper : PatternMap) (name : String) :
    (lower.merge upper).find? name = (upper.find? name).or (lower.find? name) := by
  have hreverse := lookup_eq_of_perm (List.reverse_perm upper.entries).symm upper.nodup name
  rw [merge, find?_setAll, ← hreverse]
  rfl

theorem names_set (map : PatternMap) (name : String) (patterns : List String) :
    (map.set name patterns).names = if name ∈ map.names then map.names else map.names ++ [name] :=
  names_setEntry name patterns map.entries

theorem eraseDups_names (map : PatternMap) : map.names.eraseDups = map.names :=
  eraseDups_of_nodup map.nodup

/-- Names stand in the order in which they came in first. -/
theorem names_setAll (map : PatternMap) (entries : List (String × List String)) :
    (map.setAll entries).names = (map.names ++ entries.map Prod.fst).eraseDups := by
  induction entries generalizing map with
  | nil => simp [eraseDups_names]
  | cons entry rest ih =>
    rw [setAll_cons, ih, names_set]
    split
    · rename_i hmem
      simp [List.eraseDups_append, hmem, List.removeAll]
    · simp

/-- A name in both maps keeps the place that it has in the lower one. -/
theorem names_merge (lower upper : PatternMap) :
    (lower.merge upper).names = (lower.names ++ upper.names).eraseDups :=
  names_setAll lower upper.entries

theorem set_set (map : PatternMap) (name : String) (before patterns : List String) :
    (map.set name before).set name patterns = map.set name patterns :=
  eq_of_entries_eq (setEntry_setEntry name before patterns map.entries)

theorem set_comm (hmem : name ∈ map.names) {other : String} (hne : other ≠ name)
    (patterns others : List String) :
    (map.set other others).set name patterns = (map.set name patterns).set other others :=
  eq_of_entries_eq (setEntry_comm hmem hne patterns others)

/-- A name that has its place already may be set before others. -/
theorem setAll_set {entries : List (String × List String)} (hmem : name ∈ map.names)
    (hnew : name ∉ entries.map Prod.fst) (patterns : List String) :
    (map.setAll entries).set name patterns = (map.set name patterns).setAll entries := by
  induction entries generalizing map with
  | nil => rfl
  | cons entry rest ih =>
    rw [List.map_cons, List.mem_cons, not_or] at hnew
    have hkept : name ∈ (map.set entry.1 entry.2).names := mem_names_setEntry.mpr (.inr hmem)
    rw [setAll_cons, setAll_cons, ih hkept hnew.2, set_comm hmem (Ne.symm hnew.1)]

theorem setAll_setEntry (map : PatternMap) (name : String) (patterns : List String)
    {entries : List (String × List String)} (h : (entries.map Prod.fst).Nodup) :
    map.setAll (setEntry name patterns entries) = (map.setAll entries).set name patterns := by
  induction entries generalizing map with
  | nil => rfl
  | cons entry rest ih =>
    rw [List.map_cons, List.nodup_cons] at h
    rw [setEntry]
    by_cases hname : entry.1 = name
    · subst hname
      -- The name has its place in the map by then, so it does not matter when it is set again.
      have hkept : entry.1 ∈ (map.set entry.1 entry.2).names := mem_names_setEntry.mpr (.inl rfl)
      rw [if_pos rfl, setAll_cons, setAll_cons, setAll_set hkept h.1, set_set]
    · rw [if_neg hname, setAll_cons, setAll_cons, ih _ h.2]

/-- Setting a name in the upper map has the same effect after the merge. -/
theorem merge_set (lower upper : PatternMap) (name : String) (patterns : List String) :
    lower.merge (upper.set name patterns) = (lower.merge upper).set name patterns :=
  setAll_setEntry lower name patterns upper.nodup

theorem merge_setAll (lower upper : PatternMap) (entries : List (String × List String)) :
    lower.merge (upper.setAll entries) = (lower.merge upper).setAll entries := by
  induction entries generalizing upper with
  | nil => rfl
  | cons entry rest ih => rw [setAll_cons, ih, merge_set, setAll_cons]

theorem merge_assoc (first second third : PatternMap) :
    (first.merge second).merge third = first.merge (second.merge third) :=
  (merge_setAll first second third.entries).symm

@[simp] theorem merge_empty (map : PatternMap) : map.merge empty = map := rfl

@[simp] theorem empty_merge (map : PatternMap) : empty.merge map = map := by
  refine eq_of_find?_eq ?_ fun name => ?_
  · rw [names_merge]
    exact eraseDups_names map
  · rw [find?_merge]
    exact Option.or_none

theorem merge_ofEntries (first second : List (String × List String)) :
    (ofEntries first).merge (ofEntries second) = ofEntries (first ++ second) := by
  rw [ofEntries, ofEntries, merge_setAll, ofEntries, setAll_append]
  rfl

/-! ## Leaving names out and putting them in order -/

theorem find?_filter (p : String → Bool) (map : PatternMap) (name : String) :
    (map.filter p).find? name = if p name then map.find? name else none :=
  lookup_filter p map.entries name

theorem mem_names_filter {p : String → Bool} :
    name ∈ (map.filter p).names ↔ name ∈ map.names ∧ p name = true := by
  rw [← isSome_find?_iff, find?_filter, ← isSome_find?_iff]
  by_cases hp : p name = true <;> simp [hp]

theorem filter_eq_self {p : String → Bool} (h : ∀ name ∈ map.names, p name = true) :
    map.filter p = map := by
  refine eq_of_entries_eq (List.filter_eq_self.mpr fun entry hentry => ?_)
  exact h entry.1 (List.mem_map_of_mem hentry)

theorem find?_sorted (map : PatternMap) (name : String) :
    map.sorted.find? name = map.find? name :=
  (lookup_eq_of_perm (List.mergeSort_perm map.entries _).symm map.nodup name).symm

theorem mem_names_sorted : name ∈ map.sorted.names ↔ name ∈ map.names := by
  rw [← isSome_find?_iff, find?_sorted, isSome_find?_iff]

/-- The names of a sorted map ascend. -/
theorem pairwise_names_sorted (map : PatternMap) : map.sorted.names.Pairwise (· < ·) := by
  have hle : map.sorted.names.Pairwise (· ≤ ·) :=
    List.pairwise_map.mpr (pairwise_mergeSort Prod.fst map.entries)
  refine (hle.and map.sorted.nodup).imp fun ⟨hle, hne⟩ => ?_
  exact String.not_le.mp fun hge => hne (String.le_antisymm hle hge)

theorem sorted_eq_of_perm (h : first.entries.Perm second.entries) :
    first.sorted = second.sorted :=
  eq_of_entries_eq (mergeSort_eq_of_perm Prod.fst h first.nodup)

theorem sorted_of_pairwise (h : map.names.Pairwise (· ≤ ·)) : map.sorted = map := by
  refine eq_of_entries_eq (List.mergeSort_of_pairwise ?_)
  exact (List.pairwise_map.mp h).imp decide_eq_true

theorem sorted_sorted (map : PatternMap) : map.sorted.sorted = map.sorted :=
  sorted_eq_of_perm (List.mergeSort_perm map.entries _)

end PatternMap

end ResourceLiterals.Settings
