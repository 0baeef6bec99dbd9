import ResourceLiterals.Proofs.Settings.PatternMap
import ResourceLiterals.Proofs.Subformat.Registry
import ResourceLiterals.Settings.Config

/-!
# Sanitized settings

Settings are sanitized one after the other: the numbers, the default, the patterns.  What comes of
all of them is one equation, from which everything else about sanitizing follows.

* `Builder.complaints` lists the diagnostics that settings give rise to.
* `Builder.sanitize_eq` says what is kept and what is reported.
* `Builder.Sound` holds of settings that all make sense: those that were sanitized
  (`sound_sanitize`), at that time and later (`Sound.later`), and there is nothing to do about them
  (`sanitize_of_sound`).
-/

namespace ResourceLiterals.Settings.Builder

open Registry (Later)

variable {registry : Registry} {builder : Builder}

/-! ## What is reported -/

def invalidWidthMessage (width : Int) : String :=
  s!"Invalid width {width}; using {defaultWidth}"

def invalidColumnMessage (column : Int) : String :=
  s!"Invalid column {column}; using {defaultColumn}"

def unknownDefaultMessage (name : String) : String :=
  "Unknown default subformat '" ++ name ++ "'; using '" ++ defaultSubformat ++ "'"

/-- The diagnostic for a setting that is set and not in order. -/
def complaint {α : Type} (inOrder : α → Bool) (message : α → String) : Option α → List String
  | some value => if inOrder value then [] else [message value]
  | none => []

/-- One diagnostic for each setting that makes no sense. -/
def complaints (registry : Registry) (builder : Builder) : List String :=
  complaint (0 < ·) invalidWidthMessage builder.width ++
    complaint (0 ≤ ·) invalidColumnMessage builder.column ++
    complaint registry.contains unknownDefaultMessage builder.default ++
    (builder.patterns.names.filter (!registry.contains ·)).map unknownPatternsMessage

/-! ## What is kept -/

theorem sanitizeWidth_eq (builder : Builder) :
    builder.sanitizeWidth = { builder with
      width := builder.width.filter (0 < ·)
      diagnostics := builder.diagnostics ++
        complaint (0 < ·) invalidWidthMessage builder.width } := by
  obtain ⟨width, column, default, patterns, files, diagnostics⟩ := builder
  cases width with
  | none => simp [sanitizeWidth, complaint]
  | some width =>
    by_cases hwidth : width ≤ 0
    · have hnot : ¬ 0 < width := Int.not_lt.mpr hwidth
      simp only [sanitizeWidth, complaint, Option.filter_some, hwidth, hnot, decide_false, if_true]
      rfl
    · have hpos : 0 < width := Int.not_le.mp hwidth
      simp [sanitizeWidth, complaint, Option.filter_some, hwidth, hpos]

theorem sanitizeColumn_eq (builder : Builder) :
    builder.sanitizeColumn = { builder with
      column := builder.column.filter (0 ≤ ·)
      diagnostics := builder.diagnostics ++
        complaint (0 ≤ ·) invalidColumnMessage builder.column } := by
  obtain ⟨width, column, default, patterns, files, diagnostics⟩ := builder
  cases column with
  | none => simp [sanitizeColumn, complaint]
  | some column =>
    by_cases hcolumn : column < 0
    · have hnot : ¬ 0 ≤ column := Int.not_le.mpr hcolumn
      simp only [sanitizeColumn, complaint, Option.filter_some, hcolumn, hnot, decide_false,
        if_true]
      rfl
    · have hnonneg : 0 ≤ column := Int.not_lt.mp hcolumn
      simp [sanitizeColumn, complaint, Option.filter_some, hcolumn, hnonneg]

theorem sanitizeDefault_eq (registry : Registry) (builder : Builder) :
    builder.sanitizeDefault registry = { builder with
      default := builder.default.filter registry.contains
      diagnostics := builder.diagnostics ++
        complaint registry.contains unknownDefaultMessage builder.default } := by
  obtain ⟨width, column, default, patterns, files, diagnostics⟩ := builder
  cases default with
  | none => simp [sanitizeDefault, complaint]
  | some name =>
    by_cases hname : registry.contains name = true
    · simp [sanitizeDefault, complaint, Option.filter_some, hname]
    · simp only [sanitizeDefault, complaint, Option.filter_some, hname]
      rfl

/-- Sanitizing keeps what makes sense and reports the rest. -/
theorem sanitize_eq (registry : Registry) (builder : Builder) :
    builder.sanitize registry = { builder with
      width := builder.width.filter (0 < ·)
      column := builder.column.filter (0 ≤ ·)
      default := builder.default.filter registry.contains
      patterns := builder.patterns.filter registry.contains
      diagnostics := builder.diagnostics ++ builder.complaints registry } := by
  rw [sanitize, sanitizePatterns, sanitizeDefault_eq, sanitizeColumn_eq, sanitizeWidth_eq]
  simp [complaints]

/-! ## Sound settings -/

/-- Settings that all make sense, as far as they are set. -/
structure Sound (registry : Registry) (builder : Builder) : Prop where
  width : ∀ width ∈ builder.width, 0 < width
  column : ∀ column ∈ builder.column, 0 ≤ column
  default : ∀ name ∈ builder.default, registry.contains name = true
  patterns : ∀ name ∈ builder.patterns.names, registry.contains name = true

theorem sound_sanitize (registry : Registry) (builder : Builder) :
    (builder.sanitize registry).Sound registry := by
  rw [sanitize_eq]
  constructor
  · intro width hwidth
    exact of_decide_eq_true (Option.filter_eq_some_iff.mp hwidth).2
  · intro column hcolumn
    exact of_decide_eq_true (Option.filter_eq_some_iff.mp hcolumn).2
  · intro name hname
    exact (Option.filter_eq_some_iff.mp hname).2
  · intro name hname
    exact (PatternMap.mem_names_filter.mp hname).2

/-- Names stay registered, so settings that make sense do so later on. -/
theorem Sound.later {after : Registry} (h : builder.Sound registry)
    (hlater : Later registry after) : builder.Sound after where
  width := h.width
  column := h.column
  default name hname := Registry.contains_of_later hlater (h.default name hname)
  patterns name hname := Registry.contains_of_later hlater (h.patterns name hname)

theorem complaint_eq_nil {α : Type} {inOrder : α → Bool} {setting : Option α}
    (h : ∀ value ∈ setting, inOrder value = true) (message : α → String) :
    complaint inOrder message setting = [] := by
  cases setting with
  | none => rfl
  | some value => exact if_pos (h value rfl)

theorem filter_eq_self {α : Type} {inOrder : α → Bool} {setting : Option α}
    (h : ∀ value ∈ setting, inOrder value = true) : setting.filter inOrder = setting := by
  cases setting with
  | none => rfl
  | some value => exact if_pos (h value rfl)

theorem Sound.complaints_eq_nil (h : builder.Sound registry) :
    builder.complaints registry = [] := by
  have hnames : builder.patterns.names.filter (!registry.contains ·) = [] := by
    simpa using h.patterns
  rw [complaints, hnames, complaint_eq_nil (by simpa using h.width),
    complaint_eq_nil (by simpa using h.column), complaint_eq_nil h.default]
  rfl

/-- There is nothing to do about settings that make sense. -/
theorem sanitize_of_sound (h : builder.Sound registry) : builder.sanitize registry = builder := by
  rw [sanitize_eq, h.complaints_eq_nil, PatternMap.filter_eq_self h.patterns,
    filter_eq_self (by simpa using h.width), filter_eq_self (by simpa using h.column),
    filter_eq_self h.default, List.append_nil]

end ResourceLiterals.Settings.Builder
