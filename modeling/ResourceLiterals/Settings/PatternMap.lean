/-!
# Patterns by subformat

A map from names of subformats to lists of path patterns that remembers in which order the names
came in.  A name that is set again keeps its place.

* `PatternMap` with `find?`, `set`, `filter` and `merge`.
* `set_entries` and its kin say what the operations do to the list of entries.
-/

namespace ResourceLiterals.Settings

/-- Sets the patterns of a name: in its place, or at the end. -/
def setEntry (name : String) (patterns : List String) :
    List (String × List String) → List (String × List String)
  | [] => [(name, patterns)]
  | entry :: rest =>
    if entry.1 = name then (name, patterns) :: rest else entry :: setEntry name patterns rest

/-- Setting a name adds it to the names unless it is one of them. -/
theorem mem_names_setEntry {name other : String} {patterns : List String}
    {entries : List (String × List String)} :
    other ∈ (setEntry name patterns entries).map Prod.fst ↔
      other = name ∨ other ∈ entries.map Prod.fst := by
  induction entries with
  | nil => simp [setEntry]
  | cons entry rest ih =>
    rw [setEntry]
    split
    · rename_i h
      subst h
      simp
    · simp only [List.map_cons, List.mem_cons, ih]
      exact or_left_comm

/-- Setting a name keeps the names distinct. -/
theorem nodup_names_setEntry {name : String} {patterns : List String}
    {entries : List (String × List String)} (h : (entries.map Prod.fst).Nodup) :
    ((setEntry name patterns entries).map Prod.fst).Nodup := by
  induction entries with
  | nil => simp [setEntry]
  | cons entry rest ih =>
    rw [setEntry]
    rw [List.map_cons, List.nodup_cons] at h
    split
    · rename_i hname
      rw [List.map_cons, List.nodup_cons]
      exact ⟨hname ▸ h.1, h.2⟩
    · rename_i hname
      rw [List.map_cons, List.nodup_cons]
      refine ⟨fun hmem => ?_, ih h.2⟩
      rcases mem_names_setEntry.1 hmem with heq | hmem
      · exact hname heq
      · exact h.1 hmem

/-- Patterns by the names of subformats, each of which occurs once. -/
structure PatternMap where
  entries : List (String × List String)
  nodup : (entries.map Prod.fst).Nodup
deriving DecidableEq

namespace PatternMap

def empty : PatternMap := ⟨[], by simp⟩

def names (map : PatternMap) : List String := map.entries.map Prod.fst

def find? (map : PatternMap) (name : String) : Option (List String) :=
  map.entries.lookup name

def set (map : PatternMap) (name : String) (patterns : List String) : PatternMap :=
  ⟨setEntry name patterns map.entries, nodup_names_setEntry map.nodup⟩

/-- Sets the patterns of several names, one after the other. -/
def setAll (map : PatternMap) (entries : List (String × List String)) : PatternMap :=
  entries.foldl (fun map (name, patterns) => map.set name patterns) map

/-- The map with the given entries. -/
def ofEntries (entries : List (String × List String)) : PatternMap := empty.setAll entries

/-- The entries of `upper` on top of those of `lower`. -/
def merge (lower upper : PatternMap) : PatternMap := lower.setAll upper.entries

/-- The entries whose names satisfy `p`. -/
def filter (p : String → Bool) (map : PatternMap) : PatternMap where
  entries := map.entries.filter (p ·.1)
  nodup := map.nodup.sublist (List.filter_sublist.map _)

/-- The entries in the order of their names. -/
def sorted (map : PatternMap) : PatternMap where
  entries := map.entries.mergeSort (·.1 ≤ ·.1)
  nodup := ((List.mergeSort_perm _ _).map _).nodup_iff.2 map.nodup

@[simp] theorem entries_empty : empty.entries = [] := rfl

@[simp] theorem entries_set (map : PatternMap) (name : String) (patterns : List String) :
    (map.set name patterns).entries = setEntry name patterns map.entries := rfl

@[simp] theorem entries_filter (p : String → Bool) (map : PatternMap) :
    (map.filter p).entries = map.entries.filter (p ·.1) := rfl

end PatternMap

end ResourceLiterals.Settings
