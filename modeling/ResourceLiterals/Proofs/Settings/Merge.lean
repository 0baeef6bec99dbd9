import ResourceLiterals.Proofs.Settings.PatternMap
import ResourceLiterals.Settings.Config

/-!
# Builders laid over one another

What a builder sets counts more than what the builder below it sets, and where it sets nothing the
one below counts.  There is one exception, the empty default: it is set, but it gives way to what is
below it.

* `Builder.Overrides` says what it means for one builder to count more than another.
* `overrides_merge_iff` says that this is what merging does, and for which builders it is not.
* `Builder.merge_assoc` and `Grouping.exists_merged_eq_foldl`: it does not matter how builders are
  grouped, only in which order they come.
-/

namespace ResourceLiterals.Settings

variable {α : Type}

/-! ## Overriding -/

/-- `merged` is the upper setting where that is set, and the lower one where it is not. -/
def Overlays (lower upper merged : Option α) : Prop :=
  (∀ value, upper = some value → merged = some value) ∧ (upper = none → merged = lower)

theorem overlays_iff {lower upper merged : Option α} :
    Overlays lower upper merged ↔ merged = upper.or lower := by
  cases upper <;> simp [Overlays]

namespace Builder

/-- The settings of the upper builder count more than those of the lower one. -/
structure Overrides (lower upper merged : Builder) : Prop where
  width : Overlays lower.width upper.width merged.width
  column : Overlays lower.column upper.column merged.column
  default : Overlays lower.default upper.default merged.default
  patterns : ∀ name,
    Overlays (lower.patterns.find? name) (upper.patterns.find? name) (merged.patterns.find? name)
  /-- A name that gets other patterns keeps its place, and new names come last. -/
  names : merged.patterns.names = (lower.patterns.names ++ upper.patterns.names).eraseDups

/-- The settings with the default unset if it is empty. -/
def dropEmptyDefault (builder : Builder) : Builder :=
  { builder with default := builder.default.filter (· ≠ "") }

theorem dropEmptyDefault_eq_self_iff {builder : Builder} :
    builder.dropEmptyDefault = builder ↔ builder.default ≠ some "" := by
  obtain ⟨width, column, default, patterns, files, diagnostics⟩ := builder
  cases default with
  | none => simp [dropEmptyDefault]
  | some name => by_cases hname : name = "" <;> simp [dropEmptyDefault, hname]

variable (lower upper : Builder)

theorem overrides_merge : Overrides lower upper.dropEmptyDefault (lower.merge upper) where
  width := overlays_iff.mpr rfl
  column := overlays_iff.mpr rfl
  default := overlays_iff.mpr rfl
  patterns name := overlays_iff.mpr (PatternMap.find?_merge lower.patterns upper.patterns name)
  names := PatternMap.names_merge lower.patterns upper.patterns

/-- An empty default on top does not count, so it should not be there, or not change anything. -/
theorem overlays_default_merge_iff :
    Overlays lower.default upper.default (lower.merge upper).default ↔
      (upper.default = some "" → lower.default = some "") := by
  rw [overlays_iff, merge]
  cases upper.default with
  | none => simp
  | some name => by_cases hname : name = "" <;> simp [hname]

@[simp] theorem merge_empty (builder : Builder) : builder.merge empty = builder := by
  simp [merge, empty]

theorem empty_merge (builder : Builder) : empty.merge builder = builder.dropEmptyDefault := by
  simp [merge, empty, dropEmptyDefault]

end Builder

open Builder (Overrides)

/-- A builder that sets the default only. -/
def Builder.ofDefault (name : String) : Builder := { empty with default := some name }

/-- The upper builder counts more than the lower one, except that its default is as good as unset
when it is empty.  So the empty builder changes nothing on top of another one, and below it nothing
but an empty default. -/
theorem overrides_merge_iff (lower upper : Builder) :
    Overrides lower upper.dropEmptyDefault (lower.merge upper) ∧
    (Overrides lower upper (lower.merge upper) ↔
      (upper.default = some "" → lower.default = some "")) ∧
    lower.merge .empty = lower ∧
    (Builder.empty.merge upper = upper ↔ upper.default ≠ some "") := by
  have hmerge := Builder.overrides_merge lower upper
  have hdefault := Builder.overlays_default_merge_iff lower upper
  refine ⟨hmerge, ⟨fun h => hdefault.mp h.default, fun h => ?_⟩, lower.merge_empty, ?_⟩
  · exact { hmerge with default := hdefault.mpr h }
  · rw [Builder.empty_merge, Builder.dropEmptyDefault_eq_self_iff]

/-- An empty default does not take the place of the one below, and is lost where there is none. -/
theorem not_overrides_empty_default :
    ¬ Overrides (.ofDefault "lines") (.ofDefault "")
        ((Builder.ofDefault "lines").merge (.ofDefault "")) ∧
      Builder.empty.merge (.ofDefault "") ≠ .ofDefault "" := by
  refine ⟨fun h => ?_, by decide⟩
  have hempty := h.default.1 "" rfl
  exact absurd hempty (by decide)

/-! ## Grouping -/

namespace Builder

theorem merge_assoc (first second third : Builder) :
    (first.merge second).merge third = first.merge (second.merge third) := by
  have hdefault : ((third.default.filter (· ≠ "")).or second.default).filter (· ≠ "") =
      (third.default.filter (· ≠ "")).or (second.default.filter (· ≠ "")) := by
    cases third.default with
    | none => simp
    | some name => by_cases hname : name = "" <;> simp [Option.filter_some, hname]
  simp only [merge, hdefault, PatternMap.merge_assoc, Option.or_assoc, List.append_assoc]

end Builder

/-- Builders in an order, grouped in twos. -/
inductive Grouping where
  | single (builder : Builder)
  /-- The builders of one group on top of those of another. -/
  | pair (lower upper : Grouping)

namespace Grouping

/-- The builders from the bottom to the top. -/
def layers : Grouping → List Builder
  | .single builder => [builder]
  | .pair lower upper => lower.layers ++ upper.layers

/-- What comes of the builders when each group is merged on its own first. -/
def merged : Grouping → Builder
  | .single builder => builder
  | .pair lower upper => lower.merged.merge upper.merged

theorem merge_merged (base : Builder) (grouping : Grouping) :
    base.merge grouping.merged = grouping.layers.foldl Builder.merge base := by
  induction grouping generalizing base with
  | single builder => rfl
  | pair lower upper ihlower ihupper =>
    rw [merged, layers, ← Builder.merge_assoc, ihlower, ihupper, List.foldl_append]

/-- Builders in any grouping come to the same as when they are merged one by one. -/
theorem exists_merged_eq_foldl (grouping : Grouping) :
    ∃ first rest, grouping.layers = first :: rest ∧
      grouping.merged = rest.foldl Builder.merge first := by
  induction grouping with
  | single builder => exact ⟨builder, [], rfl, rfl⟩
  | pair lower upper ihlower =>
    obtain ⟨first, rest, hlayers, hmerged⟩ := ihlower
    refine ⟨first, rest ++ upper.layers, ?_, ?_⟩
    · rw [layers, hlayers, List.cons_append]
    · rw [merged, merge_merged, hmerged, List.foldl_append]

end Grouping

end ResourceLiterals.Settings
