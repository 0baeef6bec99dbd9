import ResourceLiterals.Proofs.Settings.FromToml
import ResourceLiterals.Proofs.Toml.Entries

/-!
# Values of the wrong type

A table is looked into at several places for sections and settings, and at each of them there may be
a value of the wrong type.  Where it should be a setting it is reported, once; where it should be a
section it is passed over in silence.

* `Place` lists the places, and `mistyped` those with a value of the wrong type.  In a proper table,
  such as one that is loaded from a text, each of them is there once.
* `mistakesIn_eq` says which diagnostics there are, place by place; `diagnostics_ofTable` adds when
  none is missing.
-/

namespace ResourceLiterals.Settings

open Builder (complaint mistakesIn notIntegerMessage notStringMessage notStringsMessage ofTable)
open Toml (Proper Table Value)

/-! ## Places -/

/-- A place in a table where there may be a section of settings or a setting. -/
inductive Place where
  | render
  | width
  | column
  | subformats
  | default
  | patterns
  | patternsFor (name : String)
deriving DecidableEq

namespace Place

def isSection : Place → Bool
  | .render | .subformats | .patterns => true
  | .width | .column | .default | .patternsFor _ => false

/-- Whether a value has the right type for a place. -/
def accepts : Place → Value → Bool
  | .render, .table _ | .subformats, .table _ | .patterns, .table _ => true
  | .width, .integer _ | .column, .integer _ => true
  | .default, .string _ => true
  | .patternsFor _, .array items => items.all (text? · |>.isSome)
  | _, _ => false

/-- What stands at a place.  There is nothing in a section that is no table. -/
def value? (table : Table) : Place → Option Value
  | .render => table.find? "render"
  | .width => (sectionOf table "render").find? "width"
  | .column => (sectionOf table "render").find? "column"
  | .subformats => table.find? "subformats"
  | .default => (sectionOf table "subformats").find? "default"
  | .patterns => (sectionOf table "subformats").find? "patterns"
  | .patternsFor name => (patternValues table).find? name

def isMistyped (table : Table) (place : Place) : Bool :=
  (place.value? table).any (!place.accepts ·)

/-- What is said about a value of the wrong type, if anything is. -/
def message? (source : String) : Place → Option String
  | .width => some (notIntegerMessage source "width")
  | .column => some (notIntegerMessage source "column")
  | .default => some (notStringMessage source)
  | .patternsFor name => some (notStringsMessage source name)
  | .render | .subformats | .patterns => none

theorem isSome_message? (source : String) (place : Place) :
    (place.message? source).isSome = !place.isSection := by
  cases place <;> rfl

end Place

/-- The places that a table is looked at. -/
def placesIn (table : Table) : List Place :=
  [.render, .width, .column, .subformats, .default, .patterns] ++
    (patternValues table).map fun entry => .patternsFor entry.1

/-- The places with a value of the wrong type. -/
def mistyped (table : Table) : List Place := (placesIn table).filter (·.isMistyped table)

/-! ## Sections -/

variable {table : Table} {place : Place}

theorem proper_sectionOf (h : Proper (.table table)) (key : String) :
    Proper (.table (sectionOf table key)) := by
  rw [sectionOf]
  split
  · rename_i entries hfind
    exact h.find? hfind
  · exact .table List.nodup_nil (by simp)

theorem nodup_patternValues (h : Proper (.table table)) :
    ((patternValues table).map Prod.fst).Nodup :=
  (Toml.proper_table_iff.mp (proper_sectionOf (proper_sectionOf h "subformats") "patterns")).1

/-! ## Mistyped places -/

theorem mem_mistyped_iff : place ∈ mistyped table ↔ place.isMistyped table = true := by
  rw [mistyped, List.mem_filter, and_iff_right_iff_imp]
  intro hmistyped
  cases place with
  | patternsFor name =>
    have hname : name ∈ (patternValues table).map Prod.fst :=
      isSome_lookup_iff.mp (Option.isSome_of_any hmistyped)
    obtain ⟨entry, hentry, rfl⟩ := List.mem_map.mp hname
    exact List.mem_append_right _ (List.mem_map_of_mem hentry)
  | _ => simp [placesIn]

theorem nodup_mistyped (h : Proper (.table table)) : (mistyped table).Nodup := by
  have hnames : ((patternValues table).map fun entry => Place.patternsFor entry.1).Nodup := by
    have hinjective : Function.Injective Place.patternsFor := fun _ _ => Place.patternsFor.inj
    simpa [Function.comp_def] using (nodup_patternValues h).map hinjective
  refine List.Nodup.filter _ (List.nodup_append.mpr ⟨by decide, hnames, ?_⟩)
  rintro place hplace other hother rfl
  obtain ⟨entry, -, rfl⟩ := List.mem_map.mp hother
  simp at hplace

/-! ## Diagnostics -/

/-- What is reported of a place. -/
def Place.report? (source : String) (table : Table) (place : Place) : Option String :=
  if place.isMistyped table then place.message? source else none

theorem reports_eq (source : String) (table : Table) :
    (mistyped table).filterMap (·.message? source) =
      (placesIn table).filterMap (·.report? source table) :=
  List.filterMap_filter

variable (source : String)

theorem toList_report? (table : Table) (place : Place) {message : String}
    (hmessage : place.message? source = some message) {inOrder : Value → Bool}
    (h : ∀ value ∈ place.value? table, inOrder value = place.accepts value) :
    (place.report? source table).toList =
      complaint inOrder (fun _ => message) (place.value? table) := by
  rw [Place.report?, Place.isMistyped, hmessage]
  cases hvalue : place.value? table with
  | none => rfl
  | some value =>
    rw [complaint, h value hvalue, Option.any_some]
    cases place.accepts value <;> rfl

theorem report?_of_isSection (table : Table) (place : Place) (h : place.isSection = true) :
    place.report? source table = none := by
  have hmessage : place.message? source = none := by
    simpa [h] using place.isSome_message? source
  rw [Place.report?, hmessage, ite_self]

theorem isSome_integer? (place : Place) (hplace : place = .width ∨ place = .column)
    (value : Value) : (integer? value).isSome = place.accepts value := by
  rcases hplace with rfl | rfl <;> cases value <;> rfl

/-- What is under the default key of a proper table is not absent. -/
theorem mayNameDefault_eq (h : Proper (.table table)) : ∀ value ∈ Place.default.value? table,
    mayNameDefault value = Place.default.accepts value := by
  intro value hvalue
  cases (proper_sectionOf h "subformats").find? hvalue <;> rfl

theorem isSome_strings? (name : String) (value : Value) :
    (strings? value).isSome = (Place.patternsFor name).accepts value := by
  cases value with
  | array items =>
    have htexts : strings? (.array items) = items.mapM text? := rfl
    rw [htexts, Place.accepts]
    induction items with
    | nil => rfl
    | cons item rest ih =>
      rw [List.mapM_cons, List.all_cons, ← ih rfl]
      cases text? item <;> cases rest.mapM text? <;> rfl
  | _ => rfl

/-- Under a name there is only one value, so it is reported once. -/
theorem reports_patternsFor (h : Proper (.table table)) :
    ((patternValues table).map fun entry => .patternsFor entry.1).filterMap
        (Place.report? source table) =
      ((patternValues table).filter (strings? ·.2 |>.isNone)).map
        (notStringsMessage source ·.1) := by
  rw [List.filterMap_map, ← List.filterMap_eq_map, List.filterMap_filter]
  refine List.filterMap_congr fun entry hentry => ?_
  have hvalue : (Place.patternsFor entry.1).value? table = some entry.2 :=
    (lookup_eq_some_iff_mem (nodup_patternValues h)).mpr hentry
  rw [Function.comp_apply, Place.report?, Place.isMistyped, hvalue, Option.any_some,
    ← isSome_strings?, Option.not_isSome]
  rfl

/-- Each setting of the wrong type is reported once, and nothing else is. -/
theorem mistakesIn_eq (h : Proper (.table table)) :
    mistakesIn source table = (mistyped table).filterMap (·.message? source) := by
  have hwidth := toList_report? source table .width rfl
    fun value _ => isSome_integer? .width (.inl rfl) value
  have hcolumn := toList_report? source table .column rfl
    fun value _ => isSome_integer? .column (.inr rfl) value
  have hdefault := toList_report? source table .default rfl (mayNameDefault_eq h)
  have hsection := report?_of_isSection source table
  rw [reports_eq, placesIn, List.filterMap_append, reports_patternsFor source h,
    List.filterMap_eq_flatMap_toList]
  simp only [List.flatMap_cons, List.flatMap_nil, hwidth, hcolumn, hdefault,
    hsection .render rfl, hsection .subformats rfl, hsection .patterns rfl, Option.toList_none,
    List.nil_append, List.append_nil]
  simp only [mistakesIn, List.append_assoc]
  rfl

/-- The diagnostics of a table are one for each setting of the wrong type.  There are none for
sections that are no tables, so none is missing if there are no such sections. -/
theorem diagnostics_ofTable (file : Option String) {table : Table} (h : Proper (.table table)) :
    (mistyped table).Nodup ∧
    (∀ place, place ∈ mistyped table ↔ place.isMistyped table = true) ∧
    (ofTable file table).diagnostics =
      (mistyped table).filterMap (·.message? (file.getD "<defaults>")) ∧
    ((ofTable file table).diagnostics.length = (mistyped table).length ↔
      ∀ place ∈ mistyped table, place.isSection = false) ∧
    ((ofTable file table).diagnostics = [] ↔
      ∀ place ∈ mistyped table, place.isSection = true) := by
  have hdiagnostics : (ofTable file table).diagnostics =
      (mistyped table).filterMap (·.message? (file.getD "<defaults>")) := by
    rw [Builder.ofTable_eq]
    exact mistakesIn_eq _ h
  refine ⟨nodup_mistyped h, fun _ => mem_mistyped_iff, hdiagnostics, ?_, ?_⟩
  · rw [hdiagnostics, List.filterMap_length_eq_length]
    simp only [Place.isSome_message?, Bool.not_eq_true']
  · rw [hdiagnostics, List.filterMap_eq_nil_iff]
    simp only [← Option.isNone_iff_eq_none, ← Option.not_isSome, Place.isSome_message?,
      Bool.not_not]

/-- A table with a mistake about each setting. -/
def mistaken : Table :=
  [("render", .table [("width", .string "wide"), ("column", .boolean true)]),
    ("subformats", .table [("default", .integer 3), ("patterns", .table
      [("raw", .string "*.bin"), ("lines", .array [.string "*"]), ("int", .array [.integer 1])])])]

theorem proper_mistaken : Proper (.table mistaken) := by simp [mistaken]

/-- They are all reported, as the sections are tables. -/
theorem diagnostics_ofTable_mistaken :
    Proper (.table mistaken) ∧
    mistyped mistaken = [.width, .column, .default, .patternsFor "raw", .patternsFor "int"] ∧
    (ofTable (some "a.toml") mistaken).diagnostics =
      ["a.toml: [render] width must be an integer", "a.toml: [render] column must be an integer",
        "a.toml: [subformats] default must be a string",
        "a.toml: patterns for subformat 'raw' must be a list of strings",
        "a.toml: patterns for subformat 'int' must be a list of strings"] := by
  have hmistyped : mistyped mistaken =
      [.width, .column, .default, .patternsFor "raw", .patternsFor "int"] := by decide
  have hdiagnostics := (diagnostics_ofTable (some "a.toml") proper_mistaken).2.2.1
  rw [hmistyped] at hdiagnostics
  exact ⟨proper_mistaken, hmistyped, hdiagnostics.trans (by decide)⟩

/-- A table in which a number and an array stand in place of sections. -/
def unsectioned : Table :=
  [("render", .integer 5), ("subformats", .table [("patterns", .array [.string "*"])])]

/-- Neither of the two is reported. -/
theorem not_reported_unsectioned :
    Proper (.table unsectioned) ∧ mistyped unsectioned = [.render, .patterns] ∧
    ¬ (ofTable (some "a.toml") unsectioned).diagnostics.length = (mistyped unsectioned).length ∧
    ¬ ((ofTable (some "a.toml") unsectioned).diagnostics = [] ↔ mistyped unsectioned = []) := by
  refine ⟨?_, by decide⟩
  simp [unsectioned]

end ResourceLiterals.Settings
