import ResourceLiterals.Proofs.Entries
import ResourceLiterals.Proofs.Results
import ResourceLiterals.Toml.Entries

/-!
# Proper tables

However the entries of a table come in, what is made of them has each key once, as the keys are
gathered before anything is put under them, and no value is absent.  All but `Proper` itself is
about the reader of this library, `parse`.

* `Proper` holds of values that texts can stand for.
* `Node.Sound` and `AllSound` hold of what has been collected if the values in it are proper.
* `insert_sound` and `wholeTable_sound`: adding entries and putting parts together keeps it so.
* `finishesProperly`: sound entries make proper tables.
-/

namespace ResourceLiterals.Toml

variable {table : Table} {key : String} {value : Value} {entries : List Entry}
  {entry current : Entry} {node : Node} {fuel : Nat}

/-! ## Proper values -/

/-- A value that a text can stand for: nothing is absent, and no key of a table stands twice. -/
inductive Proper : Value → Prop where
  | boolean (value : Bool) : Proper (.boolean value)
  | integer (value : Int) : Proper (.integer value)
  | float (value : Float) : Proper (.float value)
  | string (value : String) : Proper (.string value)
  | moment (text : String) : Proper (.moment text)
  | array {items : List Value} (values : ∀ item ∈ items, Proper item) : Proper (.array items)
  | table {entries : Table} (keys : (entries.map Prod.fst).Nodup)
    (values : ∀ entry ∈ entries, Proper entry.2) : Proper (.table entries)

attribute [simp] Proper.boolean Proper.integer Proper.float Proper.string Proper.moment

@[simp] theorem proper_array_iff {items : List Value} :
    Proper (.array items) ↔ ∀ item ∈ items, Proper item := by
  constructor
  · rintro ⟨⟩
    assumption
  · exact .array

@[simp] theorem proper_table_iff :
    Proper (.table table) ↔ (table.map Prod.fst).Nodup ∧ ∀ entry ∈ table, Proper entry.2 := by
  constructor
  · rintro ⟨⟩
    constructor <;> assumption
  · exact fun h => .table h.1 h.2

theorem Proper.find? (h : Proper (.table table)) (hfind : table.find? key = some value) :
    Proper value := by
  obtain ⟨hkeys, hvalues⟩ := proper_table_iff.mp h
  exact hvalues _ ((lookup_eq_some_iff_mem hkeys).mp hfind)

/-! ## Sound entries -/

/-- All values in what has been collected are proper. -/
inductive Node.Sound : Node → Prop where
  | value {value : Value} (h : Proper value) : Sound (.value value)
  | table {origin : Origin} {entries : List Entry} (h : ∀ entry ∈ entries, Sound entry.node) :
    Sound (.table origin entries)
  | tables {elements : List (List Entry)}
    (h : ∀ element ∈ elements, ∀ entry ∈ element, Sound entry.node) : Sound (.tables elements)

/-- All values in entries are proper. -/
def AllSound (entries : List Entry) : Prop := ∀ entry ∈ entries, entry.node.Sound

@[simp] theorem Node.sound_value_iff : (Node.value value).Sound ↔ Proper value := by
  constructor
  · rintro ⟨⟩
    assumption
  · exact .value

@[simp] theorem Node.sound_table_iff {origin : Origin} :
    (Node.table origin entries).Sound ↔ AllSound entries := by
  constructor
  · rintro ⟨⟩
    assumption
  · exact .table

@[simp] theorem Node.sound_tables_iff {elements : List (List Entry)} :
    (Node.tables elements).Sound ↔ ∀ element ∈ elements, AllSound element := by
  constructor
  · rintro ⟨⟩
    assumption
  · exact .tables

theorem allSound_nil : AllSound [] := by simp [AllSound]

theorem allSound_append_iff {others : List Entry} :
    AllSound (entries ++ others) ↔ AllSound entries ∧ AllSound others := List.forall_mem_append

theorem allSound_singleton_iff : AllSound [entry] ↔ entry.node.Sound := List.forall_mem_singleton

theorem AllSound.latest? (h : AllSound entries) (hlatest : latest? key entries = some entry) :
    entry.node.Sound :=
  h entry (List.mem_reverse.mp (List.mem_of_find?_eq_some hlatest))

theorem mem_replaceLatest (h : entry ∈ replaceLatest key node entries) :
    entry ∈ entries ∨ entry.node = node := by
  rw [replaceLatest] at h
  split at h
  · exact .inl h
  · rename_i current before hbefore
    rw [List.mem_reverse, List.mem_append, List.mem_cons] at h
    rcases h with hafter | rfl | hmem
    · exact .inl (List.mem_reverse.mp ((List.takeWhile_prefix _).subset hafter))
    · exact .inr rfl
    · have hdrop := hbefore ▸ List.mem_cons_of_mem current hmem
      exact .inl (List.mem_reverse.mp ((List.dropWhile_suffix _).subset hdrop))

theorem mem_replaceAll (h : entry ∈ replaceAll key node entries) :
    entry ∈ entries ∨ entry.node = node := by
  rw [replaceAll, List.mem_append, List.mem_cons] at h
  rcases h with hbefore | rfl | hafter
  · exact .inl ((List.takeWhile_prefix _).subset hbefore)
  · exact .inr rfl
  · exact .inl ((List.dropWhile_suffix _).subset (List.mem_of_mem_filter hafter))

theorem AllSound.replaceLatest (h : AllSound entries) (hnode : node.Sound) :
    AllSound (replaceLatest key node entries) := by
  intro entry hentry
  rcases mem_replaceLatest hentry with hmem | rfl
  · exact h entry hmem
  · exact hnode

theorem AllSound.replaceAll (h : AllSound entries) (hnode : node.Sound) :
    AllSound (replaceAll key node entries) := by
  intro entry hentry
  rcases mem_replaceAll hentry with hmem | rfl
  · exact h entry hmem
  · exact hnode

theorem AllSound.flatten_tableParts (h : AllSound entries) (key : String) :
    AllSound (tableParts key entries).flatten := by
  intro inner hinner
  obtain ⟨part, hpart, hmem⟩ := List.mem_flatten.mp hinner
  obtain ⟨entry, hentry, heq⟩ := List.mem_filterMap.mp hpart
  have hsound := h entry hentry
  split at heq
  · rename_i htable
    rw [htable, Node.sound_table_iff] at hsound
    split at heq
    · obtain rfl := Option.some.inj heq
      exact hsound inner hmem
    · cases heq
  · cases heq

/-! ## Adding entries -/

/-- Whatever an entry brings to its meeting, or finds there, is sound. -/
def Meeting.Sound : Meeting → Prop
  | .clash _ | .part => True
  | .replace node | .replaceAll node => node.Sound
  | .merge outer inner whole =>
    AllSound outer ∧ AllSound inner ∧ ∀ merged, AllSound merged → (whole merged).Sound

theorem meet_sound (hentry : entry.node.Sound) (hcurrent : current.node.Sound) :
    (meet entries entry current).Sound := by
  rw [meet]
  split
  case h_1 inner origin outer hnew hold =>
    rw [hnew, Node.sound_table_iff] at hentry
    rw [hold, Node.sound_table_iff] at hcurrent
    simp [Meeting.Sound, hentry, hcurrent]
  case h_2 inner elements hnew hold =>
    rw [hnew, Node.sound_table_iff] at hentry
    rw [hold, Node.sound_tables_iff] at hcurrent
    exact Node.sound_tables_iff.mpr (List.forall_mem_append.mpr ⟨hcurrent, by simpa using hentry⟩)
  case h_6 inner origin outer _ hnew hold =>
    rw [hnew, Node.sound_table_iff] at hentry
    rw [hold, Node.sound_table_iff] at hcurrent
    split
    · trivial
    · simp [Meeting.Sound, hentry, hcurrent]
  case h_7 inner elements hnew hold =>
    rw [hnew, Node.sound_table_iff] at hentry
    rw [hold, Node.sound_tables_iff] at hcurrent
    split
    · trivial
    · split
      case h_1 last hlast =>
        have hmem := List.mem_of_getLast? hlast
        refine ⟨hcurrent last hmem, hentry, fun merged hmerged => ?_⟩
        refine Node.sound_tables_iff.mpr (List.forall_mem_append.mpr ⟨?_, by simpa using hmerged⟩)
        exact fun element helement => hcurrent element (List.dropLast_subset _ helement)
      case h_2 => trivial
  case h_8 new old hnew hold =>
    rw [hnew, Node.sound_tables_iff] at hentry
    rw [hold, Node.sound_tables_iff] at hcurrent
    exact Node.sound_tables_iff.mpr (List.forall_mem_append.mpr ⟨hcurrent, hentry⟩)
  -- Otherwise the entry clashes with what is there, or stands beside it as it is.
  all_goals first | trivial | (split <;> trivial)

variable {checking : Bool} {result joined : List Entry} {parts : List (List Entry)}

/-- What can come of adding an entry. -/
inductive Inserted (fuel : Nat) (entries : List Entry) (entry : Entry) : List Entry → Prop where
  | appended : Inserted fuel entries entry (entries ++ [entry])
  | replaced {current : Entry} {node : Node} (hlatest : latest? entry.key entries = some current)
    (hmeet : meet entries entry current = .replace node) :
    Inserted fuel entries entry (replaceLatest entry.key node entries)
  | replacedAll {current : Entry} {node : Node} (hlatest : latest? entry.key entries = some current)
    (hmeet : meet entries entry current = .replaceAll node) :
    Inserted fuel entries entry (replaceAll entry.key node entries)
  | merged {current : Entry} {outer inner merged : List Entry} {whole : List Entry → Node}
    (hlatest : latest? entry.key entries = some current)
    (hmeet : meet entries entry current = .merge outer inner whole)
    (hmerged : inner.foldlM (insert fuel true) outer = .ok merged) :
    Inserted fuel entries entry (replaceLatest entry.key (whole merged) entries)

theorem inserted_of_insert (h : insert (fuel + 1) checking entries entry = .ok result) :
    Inserted fuel entries entry result := by
  rw [insert] at h
  split at h
  case h_1 =>
    cases h
    exact .appended
  case h_2 => exact nomatch h
  case h_3 current _ hlatest _ =>
    split at h
    case h_1 => exact nomatch h
    case h_2 =>
      split at h
      · split at h
        · exact nomatch h
        · cases h
          exact .appended
      · cases h
        exact .appended
    case h_3 node hmeet =>
      cases h
      exact .replaced hlatest hmeet
    case h_4 node hmeet =>
      cases h
      exact .replacedAll hlatest hmeet
    case h_5 outer inner whole hmeet =>
      split at h
      · exact nomatch h
      · rename_i merged hmerged
        cases h
        exact .merged hlatest hmeet hmerged

theorem insert_sound (hentries : AllSound entries) (hentry : entry.node.Sound)
    (h : insert fuel checking entries entry = .ok result) : AllSound result := by
  induction fuel generalizing checking entries entry result with
  | zero => exact nomatch h
  | succ fuel ih =>
    have hmeeting : ∀ current meeting, latest? entry.key entries = some current →
        meet entries entry current = meeting → meeting.Sound :=
      fun _ _ hlatest hmeet => hmeet ▸ meet_sound hentry (hentries.latest? hlatest)
    cases inserted_of_insert h with
    | appended => exact allSound_append_iff.mpr ⟨hentries, allSound_singleton_iff.mpr hentry⟩
    | replaced hlatest hmeet => exact hentries.replaceLatest (hmeeting _ _ hlatest hmeet)
    | replacedAll hlatest hmeet => exact hentries.replaceAll (hmeeting _ _ hlatest hmeet)
    | merged hlatest hmeet hmerged =>
      obtain ⟨houter, hinner, hwhole⟩ := hmeeting _ _ hlatest hmeet
      refine hentries.replaceLatest (hwhole _ (foldlM_preserves (P := AllSound) ?_ houter hmerged))
      exact fun item hitem state next hstate => ih hstate (hinner item hitem)

theorem joinParts_sound (hparts : AllSound parts.flatten) (h : joinParts parts = .ok joined) :
    AllSound joined := by
  refine foldlM_preserves (P := AllSound) (fun item hitem state next hstate hnext => ?_)
    allSound_nil h
  have hitem := hparts item hitem
  have happended : AllSound (state ++ [item]) :=
    allSound_append_iff.mpr ⟨hstate, allSound_singleton_iff.mpr hitem⟩
  split at hnext
  case h_1 =>
    obtain rfl := Except.ok.inj hnext
    exact happended
  case h_2 current hlatest =>
    have hcurrent := hstate.latest? hlatest
    split at hnext
    case h_1 new old hnew hold =>
      rw [hnew, Node.sound_tables_iff] at hitem
      rw [hold, Node.sound_tables_iff] at hcurrent
      obtain rfl := Except.ok.inj hnext
      exact hstate.replaceLatest
        (Node.sound_tables_iff.mpr (List.forall_mem_append.mpr ⟨hcurrent, hitem⟩))
    case h_2 =>
      obtain rfl := Except.ok.inj hnext
      exact happended
    case h_3 => exact nomatch hnext

theorem wholeTable_sound (hentries : AllSound entries)
    (h : wholeTable fuel key entries = .ok result) : AllSound result := by
  have hparts := hentries.flatten_tableParts key
  cases fuel with
  | zero => exact nomatch h
  | succ fuel =>
    rw [wholeTable] at h
    split at h
    · obtain rfl := Except.ok.inj h
      exact hparts
    · obtain ⟨joined, hjoined, h⟩ := exists_of_bind_eq_ok h
      obtain ⟨-, -, h⟩ := exists_of_bind_eq_ok h
      obtain rfl := Except.ok.inj h
      exact joinParts_sound hparts hjoined

/-! ## Finished tables -/

/-- What stands under a key of the finished table. -/
def finishedEntry (fuel : Nat) (entries : List Entry) (key : String) :
    Except Fault (String × Value) := do
  if partCount key entries ≤ 1 then
    match latest? key entries with
    | some entry => return (key, ← toValue fuel entry.node)
    | none => throw .malformed
  else
    return (key, .table (← toTable fuel (← wholeTable fuel key entries)))

theorem toTable_succ (fuel : Nat) (entries : List Entry) :
    toTable (fuel + 1) entries = (keys entries).mapM (finishedEntry fuel entries) := by
  rw [toTable]
  rfl

/-- Sound entries make proper tables and values. -/
structure FinishesProperly (fuel : Nat) : Prop where
  table : ∀ entries table, AllSound entries → toTable fuel entries = .ok table →
    Proper (.table table)
  value : ∀ node value, node.Sound → toValue fuel node = .ok value → Proper value

theorem FinishesProperly.finishedEntry (h : FinishesProperly fuel) (hentries : AllSound entries)
    {finished : String × Value} (hfinished : finishedEntry fuel entries key = .ok finished) :
    finished.1 = key ∧ Proper finished.2 := by
  rw [Toml.finishedEntry] at hfinished
  split at hfinished
  · split at hfinished
    case h_1 entry hlatest =>
      obtain ⟨value, hvalue, hfinished⟩ := exists_of_bind_eq_ok hfinished
      obtain rfl := Except.ok.inj hfinished
      exact ⟨rfl, h.value _ _ (hentries.latest? hlatest) hvalue⟩
    case h_2 => exact nomatch hfinished
  · obtain ⟨whole, hwhole, hfinished⟩ := exists_of_bind_eq_ok hfinished
    obtain ⟨table, htable, hfinished⟩ := exists_of_bind_eq_ok hfinished
    obtain rfl := Except.ok.inj hfinished
    exact ⟨rfl, h.table _ _ (wholeTable_sound hentries hwhole) htable⟩

theorem finishesProperly (fuel : Nat) : FinishesProperly fuel := by
  induction fuel with
  | zero => exact ⟨nofun, nofun⟩
  | succ fuel ih =>
    constructor
    case table =>
      intro entries table hentries h
      rw [toTable_succ] at h
      have hkeys : table.map Prod.fst = keys entries :=
        map_eq_of_mapM_eq_ok (fun _ _ hfinished => (ih.finishedEntry hentries hfinished).1) h
      refine .table (hkeys ▸ nodup_eraseDups _) (forall_mem_of_mapM_eq_ok ?_ h)
      exact fun _ _ _ hfinished => (ih.finishedEntry hentries hfinished).2
    case value =>
      intro node value hnode h
      cases node with
      | value value =>
        obtain rfl := Except.ok.inj h
        exact Node.sound_value_iff.mp hnode
      | table origin entries =>
        obtain ⟨table, htable, rfl⟩ := exists_of_map_eq_ok h
        exact ih.table entries table (Node.sound_table_iff.mp hnode) htable
      | tables elements =>
        obtain ⟨tables, htables, rfl⟩ := exists_of_map_eq_ok h
        have helements := Node.sound_tables_iff.mp hnode
        refine .array (List.forall_mem_map.mpr (forall_mem_of_mapM_eq_ok ?_ htables))
        exact fun element helement table => ih.table element table (helements element helement)

theorem keyedEntry_sound {path : List String} (hvalue : Proper value)
    (h : keyedEntry value path = some entry) : entry.node.Sound := by
  induction path generalizing entry with
  | nil => exact nomatch h
  | cons name names ih =>
    cases names with
    | nil =>
      obtain rfl := Option.some.inj h
      exact .value hvalue
    | cons next rest =>
      obtain ⟨inner, hinner, rfl⟩ := Option.map_eq_some_iff.mp h
      exact .table (allSound_singleton_iff.mpr (ih hinner))

end ResourceLiterals.Toml
