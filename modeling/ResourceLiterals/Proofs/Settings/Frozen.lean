import ResourceLiterals.Paths.Pattern
import ResourceLiterals.Proofs.Settings.Filters
import ResourceLiterals.Proofs.Settings.Sanitize

/-!
# Frozen configurations

A configuration is made from settings under the registry of that moment, or it is the bare one.
All that it holds makes sense then and at any later time, and it stays the same when it is thawed
and frozen again.

* `Builder.toConfig_eq_ok_iff` says what a configuration is made of, and when there is none.
* `Config.Valid` holds of configurations that make sense, `valid_of_freeze` says which do.
* `freeze_valid_stable` is about freezing for the first time and again.

All of this holds for any reader of patterns.
-/

namespace ResourceLiterals.Settings

open Paths (PatternReader)
open Registry (Later)

variable {registry : Registry} {builder : Builder}

theorem contains_defaultSubformat (registry : Registry) :
    registry.contains defaultSubformat = true := rfl

/-! ## The default -/

namespace Builder

/-- The default that holds when it is not set, or empty. -/
def chosenDefault (builder : Builder) : String :=
  (builder.default.filter (· ≠ "")).getD defaultSubformat

theorem chosenDefault_of_some {name : String} (h : builder.default = some name) (hname : name ≠ "") :
    builder.chosenDefault = name := by
  rw [chosenDefault, h, Option.filter_some, if_pos (by simpa using hname), Option.getD_some]

theorem chosenDefault_ne_empty (builder : Builder) : builder.chosenDefault ≠ "" := by
  rw [chosenDefault]
  cases h : builder.default.filter (· ≠ "") with
  | none => decide
  | some name => simpa using (Option.filter_eq_some_iff.mp h).2

/-- The default of sound settings is registered. -/
theorem Sound.contains_chosenDefault (h : builder.Sound registry) :
    registry.contains builder.chosenDefault = true := by
  rw [chosenDefault]
  cases hdefault : builder.default.filter (· ≠ "") with
  | none => exact contains_defaultSubformat registry
  | some name => exact h.default name (Option.filter_eq_some_iff.mp hdefault).1

end Builder

section AnyReader

variable [PatternReader] {config : Config}

/-- A configuration that exists once the registry is as it is. -/
def Frozen (registry : Registry) (config : Config) : Prop :=
  config = .bare ∨ ∃ builder : Builder, builder.freeze registry = .ok config

/-! ## Completing settings -/

namespace Builder

/-- The configuration with the settings as they are, and with these patterns read. -/
def complete (builder : Builder) (filters : List (String × PatternReader.Filter)) : Config where
  width := builder.width.getD defaultWidth
  column := builder.column.getD defaultColumn
  default := builder.chosenDefault
  patterns := builder.patterns.sorted
  files := builder.files
  diagnostics := builder.diagnostics
  filters := filters

theorem toConfig_eq (builder : Builder) :
    builder.toConfig = (readFilters builder.patterns.sorted).map builder.complete := rfl

theorem toConfig_eq_ok_iff :
    builder.toConfig = .ok config ↔
      ∃ filters, readFilters builder.patterns.sorted = .ok filters ∧
        config = builder.complete filters := by
  rw [toConfig_eq]
  cases readFilters builder.patterns.sorted with
  | error error => simp [Except.map]
  | ok filters => simp [Except.map, eq_comm]

/-- Patterns that are in order already stay as they are. -/
theorem toConfig_of_pairwise (h : builder.patterns.names.Pairwise (· ≤ ·)) :
    builder.toConfig = (readFilters builder.patterns).map fun filters =>
      { builder.complete filters with patterns := builder.patterns } := by
  have hcomplete : builder.complete = fun filters =>
      { builder.complete filters with patterns := builder.patterns } := by
    funext filters
    rw [complete, PatternMap.sorted_of_pairwise h]
  rw [toConfig_eq, PatternMap.sorted_of_pairwise h, ← hcomplete]

/-- A configuration is made from its own settings again. -/
theorem toConfig_thaw (h : builder.toConfig = .ok config) : config.thaw.toConfig = .ok config := by
  obtain ⟨filters, hfilters, rfl⟩ := toConfig_eq_ok_iff.mp h
  have hsorted := PatternMap.sorted_sorted builder.patterns
  -- What was chosen is not empty, so it is not replaced for a second time.
  have hdefault : (builder.complete filters).thaw.chosenDefault = builder.chosenDefault :=
    chosenDefault_of_some rfl builder.chosenDefault_ne_empty
  refine toConfig_eq_ok_iff.mpr ⟨filters, ?_, ?_⟩
  · rw [Config.thaw, complete, hsorted, hfilters]
  · rw [complete.eq_def (builder.complete filters).thaw, hdefault]
    simp only [complete, Config.thaw, hsorted, Option.getD_some]

end Builder

/-! ## Configurations that make sense -/

/-- A configuration in which everything makes sense. -/
structure Config.Valid (registry : Registry) (config : Config) : Prop where
  width : 1 ≤ config.width
  column : 0 ≤ config.column
  default : registry.contains config.default = true
  patterns : ∀ name ∈ config.patterns.names, registry.contains name = true
  /-- The names are distinct and stand in the order of their code points. -/
  ascending : config.patterns.names.Pairwise (· < ·)

theorem Builder.Sound.valid (hsound : builder.Sound registry) (h : builder.toConfig = .ok config) :
    config.Valid registry := by
  obtain ⟨filters, -, rfl⟩ := toConfig_eq_ok_iff.mp h
  constructor
  · cases hwidth : builder.width with
    | none => simp [complete, hwidth, defaultWidth]
    | some width =>
      have hpos : 1 ≤ width := hsound.width width hwidth
      simpa [complete, hwidth] using hpos
  · cases hcolumn : builder.column with
    | none => simp [complete, hcolumn, defaultColumn]
    | some column =>
      have hnonneg : 0 ≤ column := hsound.column column hcolumn
      simpa [complete, hcolumn] using hnonneg
  · exact hsound.contains_chosenDefault
  · intro name hname
    exact hsound.patterns name (PatternMap.mem_names_sorted.mp hname)
  · exact PatternMap.pairwise_names_sorted builder.patterns

theorem valid_of_freeze (h : builder.freeze registry = .ok config) : config.Valid registry :=
  (builder.sound_sanitize registry).valid h

theorem Config.Valid.sound_thaw (h : config.Valid registry) : config.thaw.Sound registry where
  width width hwidth := by
    obtain rfl := Option.some.inj hwidth
    exact h.width
  column column hcolumn := by
    obtain rfl := Option.some.inj hcolumn
    exact h.column
  default name hname := by
    obtain rfl := Option.some.inj hname
    exact h.default
  patterns := h.patterns

/-- The subformat that a configuration falls back on is registered. -/
theorem contains_default_of_frozen (h : Frozen registry config) :
    registry.contains config.default = true := by
  rcases h with rfl | ⟨builder, hfreeze⟩
  · exact contains_defaultSubformat registry
  · exact (valid_of_freeze hfreeze).default

/-- It stays registered. -/
theorem contains_default_of_later {earlier : Registry} (h : Frozen earlier config)
    (hlater : Later earlier registry) : registry.contains config.default = true :=
  Registry.contains_of_later hlater (contains_default_of_frozen h)

/-- Once they are sanitized, settings freeze as they did, also when more subformats are
registered. -/
theorem freeze_sanitize {later : Registry} (h : builder.freeze registry = .ok config)
    (hlater : Later registry later) : (builder.sanitize registry).freeze later = .ok config := by
  have hsound := (builder.sound_sanitize registry).later hlater
  rw [Builder.freeze, Builder.sanitize_of_sound hsound]
  exact h

theorem freeze_thaw {later : Registry} (h : builder.freeze registry = .ok config)
    (hlater : Later registry later) : config.thaw.freeze later = .ok config := by
  have hsound := (valid_of_freeze h).sound_thaw.later hlater
  rw [Builder.freeze, Builder.sanitize_of_sound hsound]
  exact Builder.toConfig_thaw h

theorem diagnostics_of_freeze (h : builder.freeze registry = .ok config) :
    config.diagnostics = builder.diagnostics ++ builder.complaints registry := by
  obtain ⟨filters, -, rfl⟩ := Builder.toConfig_eq_ok_iff.mp h
  rw [Builder.complete, Builder.sanitize_eq]

/-- What is frozen makes sense, with a diagnostic for each setting that did not.  Nothing changes
when the settings are sanitized or frozen once more, or the configuration is thawed and frozen,
under the same registry or a later one. -/
theorem freeze_valid_stable (h : builder.freeze registry = .ok config) :
    config.Valid registry ∧
    config.diagnostics = builder.diagnostics ++ builder.complaints registry ∧
    ∀ later, Later registry later →
      (builder.sanitize registry).sanitize later = builder.sanitize registry ∧
      (builder.sanitize registry).freeze later = .ok config ∧
      config.thaw.freeze later = .ok config := by
  refine ⟨valid_of_freeze h, diagnostics_of_freeze h, fun later hlater => ⟨?_, ?_, ?_⟩⟩
  · exact Builder.sanitize_of_sound ((builder.sound_sanitize registry).later hlater)
  · exact freeze_sanitize h hlater
  · exact freeze_thaw h hlater

end AnyReader

/-- Settings of which only one list of patterns makes sense. -/
def untidy : Builder where
  width := some 0
  column := some (-1)
  default := some "yaml"
  patterns := .ofEntries [("yaml", ["*.yml"]), ("lines", ["*"])]
  files := []
  diagnostics := ["before"]

/-- What they amount to. -/
def tidied : Config where
  width := 80
  column := 0
  default := "raw"
  patterns := .ofEntries [("lines", ["*"])]
  files := []
  diagnostics := ["before", "Invalid width 0; using 80", "Invalid column -1; using 0",
    "Unknown default subformat 'yaml'; using 'raw'",
    "Ignoring patterns for unknown subformat 'yaml'"]
  filters := [("lines", ⟨[⟨true, .anything⟩]⟩)]

theorem freeze_untidy : untidy.freeze .initial = .ok tidied :=
  Builder.toConfig_of_pairwise (by decide)

/-- The name that was dropped is registered before the configuration is frozen again. -/
theorem freeze_valid_stable_untidy :
    untidy.freeze .initial = .ok tidied ∧ tidied.Valid .initial ∧
    tidied.diagnostics = untidy.diagnostics ++ untidy.complaints .initial ∧
    (untidy.sanitize .initial).freeze ⟨[("yaml", .builtIn .raw)]⟩ = .ok tidied ∧
    tidied.thaw.freeze ⟨[("yaml", .builtIn .raw)]⟩ = .ok tidied := by
  have hlater : Later .initial ⟨[("yaml", .builtIn .raw)]⟩ := .single ⟨"yaml", .builtIn .raw, rfl⟩
  obtain ⟨hvalid, hdiagnostics, hstable⟩ := freeze_valid_stable freeze_untidy
  obtain ⟨-, hagain, hthawed⟩ := hstable _ hlater
  exact ⟨freeze_untidy, hvalid, hdiagnostics, hagain, hthawed⟩

end ResourceLiterals.Settings
