import Mathlib.Data.List.Induction
import ResourceLiterals.Proofs.Settings.Frozen
import ResourceLiterals.Proofs.Settings.FromToml

/-!
# Layers of settings

Tables are laid one over the other, with the defaults at the bottom, and what comes of them is
frozen.  Each setting is that of the last table that says something about it, also where a table
further up says it in the wrong way; whether it makes sense is asked in the end only.

* `last?` is what the last table says, `Builder.ofLayers_eq` what comes of all tables before it is
  sanitized.
* `FollowsLayers` says which configuration the tables amount to.
* `freeze_ofLayers` says that they amount to it, or which patterns are to blame, for any reader of
  patterns.  `not_followsLayers_negation` is a pattern that is to blame with the reader of this
  library.
-/

namespace ResourceLiterals.Settings

open Builder (complaint invalidColumnMessage invalidWidthMessage unknownDefaultMessage
  unknownPatternsMessage)
open Paths (PatternReader)
open Toml (Table)

/-- A table of settings, and the file it comes from. -/
structure Layer where
  file : Option String
  table : Table

namespace Layer

/-- The settings that are read from a table. -/
def builder (layer : Layer) : Builder := .ofTable layer.file layer.table

theorem builder_eq (layer : Layer) :
    layer.builder = {
      width := integerIn? layer.table "width"
      column := integerIn? layer.table "column"
      default := defaultIn? layer.table
      patterns := .ofEntries (patternsIn layer.table)
      files := layer.file.toList
      diagnostics := Builder.mistakesIn (layer.file.getD "<defaults>") layer.table } :=
  Builder.ofTable_eq layer.file layer.table

def integer? (key : String) (layer : Layer) : Option Int := integerIn? layer.table key

/-- The default, unless it is empty. -/
def default? (layer : Layer) : Option String := (defaultIn? layer.table).filter (· ≠ "")

/-- The patterns of a name. -/
def patterns? (name : String) (layer : Layer) : Option (List String) :=
  (patternsIn layer.table).reverse.lookup name

end Layer

variable {α : Type} {registry : Registry} {layers : List Layer}

/-! ## The last layer that says something -/

/-- What the last layer says about a setting, of those that say something about it. -/
def last? (setting : Layer → Option α) (layers : List Layer) : Option α :=
  (layers.filterMap setting).getLast?

theorem last?_concat (setting : Layer → Option α) (layers : List Layer) (layer : Layer) :
    last? setting (layers ++ [layer]) = (setting layer).or (last? setting layers) := by
  rw [last?, last?, List.filterMap_append]
  cases h : setting layer with
  | none => simp [h]
  | some value => simp [h]

theorem exists_of_last?_eq_some {setting : Layer → Option α} {value : α}
    (h : last? setting layers = some value) : ∃ layer, setting layer = some value := by
  obtain ⟨layer, -, hlayer⟩ := List.mem_filterMap.mp (List.mem_of_getLast? h)
  exact ⟨layer, hlayer⟩

/-- All patterns in the layers, from the bottom to the top. -/
def patternsOf (layers : List Layer) : List (String × List String) :=
  layers.flatMap fun layer => patternsIn layer.table

theorem patternsOf_concat (layers : List Layer) (layer : Layer) :
    patternsOf (layers ++ [layer]) = patternsOf layers ++ patternsIn layer.table := by
  simp [patternsOf]

theorem lookup_patternsOf (name : String) (layers : List Layer) :
    (patternsOf layers).reverse.lookup name = last? (·.patterns? name) layers := by
  induction layers using List.reverseRecOn with
  | nil => rfl
  | append_singleton layers layer ih =>
    rw [patternsOf_concat, List.reverse_append, List.lookup_append, ih, last?_concat,
      Layer.patterns?]

namespace Builder

/-- The settings in all layers, over those that hold by default. -/
def ofLayers (layers : List Layer) : Builder :=
  layers.foldl (fun builder layer => builder.merge layer.builder) ofDefaults

theorem ofLayers_concat (layers : List Layer) (layer : Layer) :
    ofLayers (layers ++ [layer]) = (ofLayers layers).merge layer.builder :=
  List.foldl_concat _ _ _ _

theorem ofDefaults_eq : ofDefaults = ⟨some 80, some 0, some "raw", .empty, [], []⟩ := by
  rw [ofDefaults, ofTable_eq]
  decide

theorem ofLayers_eq (layers : List Layer) :
    ofLayers layers = {
      width := (last? (·.integer? "width") layers).or (some 80)
      column := (last? (·.integer? "column") layers).or (some 0)
      default := (last? Layer.default? layers).or (some "raw")
      patterns := .ofEntries (patternsOf layers)
      files := layers.filterMap Layer.file
      diagnostics := layers.flatMap (·.builder.diagnostics) } := by
  -- The layer on top is merged last, so layers are taken off the end of the list.
  induction layers using List.reverseRecOn with
  | nil => exact ofDefaults_eq
  | append_singleton layers layer ih =>
    have hpatterns : (PatternMap.ofEntries (patternsOf layers)).merge layer.builder.patterns =
        .ofEntries (patternsOf (layers ++ [layer])) := by
      rw [layer.builder_eq, patternsOf_concat]
      exact PatternMap.merge_ofEntries (patternsOf layers) (patternsIn layer.table)
    have hfiles : layers.filterMap Layer.file ++ layer.builder.files =
        (layers ++ [layer]).filterMap Layer.file := by
      rw [layer.builder_eq, List.filterMap_append]
      cases h : layer.file <;> simp [h]
    rw [ofLayers_concat, ih, merge, hpatterns, hfiles, layer.builder_eq]
    simp [last?_concat, Layer.integer?, Layer.default?, layer.builder_eq]

end Builder

/-! ## What the layers amount to -/

/-- The patterns of a registered name. -/
def inForce? (registry : Registry) (layers : List Layer) (name : String) : Option (List String) :=
  if registry.contains name then last? (·.patterns? name) layers else none

/-- One diagnostic for each setting that is given up when all layers are in place. -/
def givenUp (registry : Registry) (layers : List Layer) : List String :=
  complaint (0 < ·) invalidWidthMessage (last? (·.integer? "width") layers) ++
    complaint (0 ≤ ·) invalidColumnMessage (last? (·.integer? "column") layers) ++
    complaint registry.contains unknownDefaultMessage (last? Layer.default? layers) ++
    (((patternsOf layers).map Prod.fst).eraseDups.filter (!registry.contains ·)).map
      unknownPatternsMessage

/-- The configuration that layers amount to. -/
structure FollowsLayers [PatternReader] (registry : Registry) (layers : List Layer) (config : Config) : Prop where
  width : config.width = ((last? (·.integer? "width") layers).filter (0 < ·)).getD 80
  column : config.column = ((last? (·.integer? "column") layers).filter (0 ≤ ·)).getD 0
  default : config.default = ((last? Layer.default? layers).filter registry.contains).getD "raw"
  patterns : ∀ name, config.patterns.find? name = inForce? registry layers name
  files : config.files = layers.filterMap Layer.file
  /-- Those of the tables, and those of the settings that are given up. -/
  diagnostics : config.diagnostics =
    layers.flatMap (·.builder.diagnostics) ++ givenUp registry layers

theorem complaint_or {inOrder : α → Bool} {value : α} (h : inOrder value = true)
    (message : α → String) (setting : Option α) :
    complaint inOrder message (setting.or (some value)) = complaint inOrder message setting := by
  cases setting with
  | none => exact if_pos h
  | some other => rfl

theorem getD_filter_or {inOrder : α → Bool} {value : α} (h : inOrder value = true)
    (setting : Option α) :
    ((setting.or (some value)).filter inOrder).getD value =
      (setting.filter inOrder).getD value := by
  cases setting with
  | none => simp [Option.filter_some, h]
  | some other => rfl

theorem complaints_ofLayers (registry : Registry) (layers : List Layer) :
    (Builder.ofLayers layers).complaints registry = givenUp registry layers := by
  have hraw : registry.contains "raw" = true := contains_defaultSubformat registry
  rw [Builder.ofLayers_eq, Builder.complaints]
  dsimp only
  rw [complaint_or (by decide), complaint_or (by decide), complaint_or hraw,
    PatternMap.ofEntries, PatternMap.names_setAll]
  rfl

/-- An empty default does not get past the layer that it stands in. -/
theorem default_ofLayers_ne_empty (layers : List Layer) :
    ∀ name ∈ (Builder.ofLayers layers).default, name ≠ "" := by
  rw [Builder.ofLayers_eq]
  intro name hname
  rcases Option.or_eq_some_iff.mp hname with hlast | ⟨-, hraw⟩
  · obtain ⟨layer, hlayer⟩ := exists_of_last?_eq_some hlast
    simpa using (Option.filter_eq_some_iff.mp hlayer).2
  · obtain rfl := Option.some.inj hraw
    decide

theorem chosenDefault_ofLayers (registry : Registry) (layers : List Layer) :
    ((Builder.ofLayers layers).sanitize registry).chosenDefault =
      ((last? Layer.default? layers).filter registry.contains).getD "raw" := by
  have hnonempty : ∀ name ∈ (Builder.ofLayers layers).default.filter registry.contains,
      decide (name ≠ "") = true := fun name hname =>
    decide_eq_true (default_ofLayers_ne_empty layers name (Option.filter_eq_some_iff.mp hname).1)
  rw [Builder.sanitize_eq, Builder.chosenDefault, Builder.filter_eq_self hnonempty,
    Builder.ofLayers_eq]
  exact getD_filter_or (contains_defaultSubformat registry) (last? Layer.default? layers)

theorem find?_ofLayers (registry : Registry) (layers : List Layer) (name : String) :
    ((Builder.ofLayers layers).sanitize registry).patterns.find? name =
      inForce? registry layers name := by
  rw [Builder.sanitize_eq, Builder.ofLayers_eq, PatternMap.find?_filter, PatternMap.ofEntries,
    PatternMap.find?_setAll, lookup_patternsOf, inForce?]
  simp [PatternMap.find?]

/-- Whatever is frozen follows the layers. -/
theorem followsLayers_of_freeze [PatternReader] {config : Config}
    (h : (Builder.ofLayers layers).freeze registry = .ok config) :
    FollowsLayers registry layers config := by
  have hdiagnostics := diagnostics_of_freeze h
  obtain ⟨filters, -, rfl⟩ := Builder.toConfig_eq_ok_iff.mp h
  constructor
  · rw [Builder.complete, Builder.sanitize_eq, Builder.ofLayers_eq]
    exact getD_filter_or (by decide) _
  · rw [Builder.complete, Builder.sanitize_eq, Builder.ofLayers_eq]
    exact getD_filter_or (by decide) _
  · exact chosenDefault_ofLayers registry layers
  · intro name
    exact (PatternMap.find?_sorted _ name).trans (find?_ofLayers registry layers name)
  · rw [Builder.complete, Builder.sanitize_eq, Builder.ofLayers_eq]
  · rw [hdiagnostics, complaints_ofLayers, Builder.ofLayers_eq]

/-- Layers amount to a configuration that follows them, unless the patterns of a registered name are
refused; then they amount to nothing, and the least of such names is to blame. -/
theorem freeze_ofLayers [PatternReader] (registry : Registry) (layers : List Layer) :
    ((∀ name lines, inForce? registry layers name = some lines → Accepted lines) ∧
      ∃ config, (Builder.ofLayers layers).freeze registry = .ok config ∧
        FollowsLayers registry layers config) ∨
    ∃ name lines error, inForce? registry layers name = some lines ∧ Refused lines error ∧
      (∀ other < name, ∀ earlier, inForce? registry layers other = some earlier →
        Accepted earlier) ∧
      (Builder.ofLayers layers).freeze registry = .error error := by
  have hfreeze : (Builder.ofLayers layers).freeze registry =
      (readFilters ((Builder.ofLayers layers).sanitize registry).patterns.sorted).map _ :=
    Builder.toConfig_eq _
  simp only [← find?_ofLayers]
  cases hread : readFilters ((Builder.ofLayers layers).sanitize registry).patterns.sorted with
  | ok filters =>
    rw [hread] at hfreeze
    refine .inl ⟨fun name lines hlines => ?_, _, hfreeze, followsLayers_of_freeze hfreeze⟩
    rw [← PatternMap.find?_sorted, PatternMap.find?_eq_some_iff] at hlines
    exact accepted_of_readEntries hread (name, lines) hlines
  | error error =>
    rw [hread] at hfreeze
    obtain ⟨name, lines, hlines, hrefused, hbefore⟩ := exists_refused_of_readFilters_sorted hread
    exact .inr ⟨name, lines, error, hlines, hrefused, hbefore, hfreeze⟩

/-- A table with a pattern that negates nothing. -/
def negation : Layer where
  file := some "a.toml"
  table := [("subformats", .table [("patterns", .table [("raw", .array [.string "!"])])])]

/-- It amounts to no configuration, as its pattern is refused by the reader of this library. -/
theorem not_followsLayers_negation :
    ¬ ∃ config, (Builder.ofLayers [negation]).freeze .initial = .ok config ∧
      FollowsLayers .initial [negation] config := by
  have hrefused : (Builder.ofLayers [negation]).freeze .initial = .error (.invalid "!") :=
    Builder.toConfig_of_pairwise (by decide)
  rintro ⟨config, hfreeze, -⟩
  rw [hrefused] at hfreeze
  exact nomatch hfreeze

end ResourceLiterals.Settings
