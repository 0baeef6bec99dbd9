import Mathlib
import ResourceLiterals.Proofs.Settings.Merge
import ResourceLiterals.Proofs.Toml.Document
import ResourceLiterals.Settings.Load

/-!
# What comes of loading files

Files are loaded one after the other, and the settings in each are laid over those before.  A file
that is missing or malformed has none, so it changes nothing but the list of files.  A file whose
content has a defect keeps all files from being loaded, and the first of such files is to blame.

* `Unreadable` and `Spoilt` tell the two kinds of files apart.
* `loadTable_eq_ok_iff`, `loadTable_eq_error_iff` and `loadFile_eq_error_iff` are about one file;
  `proper_of_loadTable` says when no key stands twice in its table.
* `loadOver_eq_error_iff` and `loadOver_of_unreadable` are about several files, by the path that is
  taken first; `loadsUnlessSpoilt` sums up.
* `loadMerged_in_groups`: the settings in files may be merged in any groups.

All of this holds for any reader of TOML.  The reader of this library comes in where files have
contents that are spelled out, and where its tables are found to be proper.
-/

namespace ResourceLiterals.Settings

open Builder (configFile loadFile loadMerged loadOver ofDefaults)
open Toml (Defect LoadError Proper ProperReader ReadsAs Table)

variable {tree : FileTree} {path : FilePath} {paths : List FilePath} {table : Table}
  {builder first second : Builder} {error : LoadError}

/-- The settings without the files that they come from. -/
def Builder.withoutFiles (builder : Builder) : Builder := { builder with files := [] }

theorem Builder.withoutFiles_merge (lower upper : Builder) :
    (lower.merge upper).withoutFiles = lower.withoutFiles.merge upper.withoutFiles := rfl

section AnyReader

variable [Toml.Reader]

/-! ## One file -/

/-- There is no file, or one with a malformed text. -/
def Unreadable (tree : FileTree) (path : FilePath) : Prop :=
  tree.read? path = none ∨
    ∃ data, tree.read? path = some data ∧ ReadsAs data (.error .malformed)

/-- There is a file, and its content has a defect. -/
def Spoilt (tree : FileTree) (path : FilePath) (error : LoadError) : Prop :=
  ∃ data, tree.read? path = some data ∧ Defect data error

theorem loadTable_eq_ok_iff :
    loadTable tree path = .ok table ↔
      (Unreadable tree path ∧ table = []) ∨
        ∃ data, tree.read? path = some data ∧ ReadsAs data (.ok table) := by
  rw [loadTable, Unreadable]
  cases tree.read? path with
  | none => simp [eq_comm]
  | some data => simp [Toml.load_eq_ok_iff, or_comm]

theorem loadTable_eq_error_iff :
    loadTable tree path = .error error ↔ Spoilt tree path error := by
  rw [loadTable, Spoilt]
  cases tree.read? path with
  | none => simp
  | some data => simp [Toml.load_eq_error_iff]

theorem proper_of_loadTable (hreader : ProperReader) (h : loadTable tree path = .ok table) :
    Proper (.table table) := by
  rw [loadTable] at h
  split at h
  · exact Toml.proper_of_load hreader h
  · obtain rfl := Except.ok.inj h
    exact .table List.nodup_nil (List.forall_mem_nil _)

theorem loadFile_eq_error_iff :
    loadFile tree path = .error error ↔ Spoilt tree path error := by
  rw [← loadTable_eq_error_iff, loadFile]
  cases loadTable tree path with
  | error other => simp [bind, Except.bind]
  | ok table =>
    simp only [bind, Except.bind, reduceCtorEq, iff_false]
    split <;> exact nofun

theorem exists_loadFile_of_unreadable (h : Unreadable tree path) :
    ∃ layer, loadFile tree path = .ok layer ∧ (layer.getD .empty).withoutFiles = .empty := by
  rw [loadFile, loadTable_eq_ok_iff.mpr (.inl ⟨h, rfl⟩)]
  by_cases hproject : path.name = projectFileName
  · exact ⟨none, if_pos hproject, rfl⟩
  · exact ⟨some (.ofTable (some path.text) []), if_neg hproject, rfl⟩

/-! ## Several files -/

theorem loadOver_cons (tree : FileTree) (builder : Builder) (path : FilePath)
    (paths : List FilePath) :
    loadOver tree builder (path :: paths) =
      loadFile tree (configFile tree path) >>= fun layer =>
        loadOver tree (builder.merge (layer.getD .empty)) paths := by
  rw [loadOver]
  congr
  funext layer
  cases layer with
  | none => rw [Option.getD_none, Builder.merge_empty]
  | some upper => rfl

/-- One of the paths leads to a spoilt file, and those before it do not. -/
inductive FirstSpoilt (tree : FileTree) (error : LoadError) : List FilePath → Prop where
  | here {path : FilePath} {paths : List FilePath} (h : Spoilt tree (configFile tree path) error) :
    FirstSpoilt tree error (path :: paths)
  | later {path : FilePath} {paths : List FilePath}
    (hpath : ∀ other, ¬ Spoilt tree (configFile tree path) other)
    (h : FirstSpoilt tree error paths) : FirstSpoilt tree error (path :: paths)

theorem exists_firstSpoilt_iff :
    (∃ error, FirstSpoilt tree error paths) ↔
      ∃ path ∈ paths, ∃ error, Spoilt tree (configFile tree path) error := by
  constructor
  · rintro ⟨error, h⟩
    induction h with
    | here h => exact ⟨_, List.mem_cons_self, error, h⟩
    | later _ _ ih =>
      obtain ⟨path, hmem, hspoilt⟩ := ih
      exact ⟨path, List.mem_cons_of_mem _ hmem, hspoilt⟩
  · rintro ⟨path, hmem, hspoilt⟩
    induction hmem with
    | head => exact hspoilt.imp fun _ => .here
    | @tail earlier paths _ ih =>
      by_cases hearlier : ∃ error, Spoilt tree (configFile tree earlier) error
      · exact hearlier.imp fun _ => .here
      · exact ih.imp fun _ => .later (not_exists.mp hearlier)

/-- Loading fails at the first spoilt file, whatever has been loaded before. -/
theorem loadOver_eq_error_iff :
    loadOver tree builder paths = .error error ↔ FirstSpoilt tree error paths := by
  induction paths generalizing builder with
  | nil => exact ⟨nofun, nofun⟩
  | cons path paths ih =>
    rw [loadOver_cons]
    cases hfile : loadFile tree (configFile tree path) with
    | error other =>
      have hspoilt : Spoilt tree (configFile tree path) other := loadFile_eq_error_iff.mp hfile
      constructor
      · rintro ⟨⟩
        exact .here hspoilt
      · rintro (hhere | ⟨hpath, -⟩)
        · cases hfile.symm.trans (loadFile_eq_error_iff.mpr hhere)
          rfl
        · exact absurd hspoilt (hpath other)
    | ok layer =>
      have hpath : ∀ other, ¬ Spoilt tree (configFile tree path) other := by
        intro other hspoilt
        rw [loadFile_eq_error_iff.mpr hspoilt] at hfile
        cases hfile
      refine Iff.trans ih ⟨.later hpath, ?_⟩
      rintro (hhere | ⟨-, hlater⟩)
      · exact absurd hhere (hpath error)
      · exact hlater

theorem exists_loadOver_iff :
    (∃ merged, loadOver tree builder paths = .ok merged) ↔
      ∀ path ∈ paths, ∀ error, ¬ Spoilt tree (configFile tree path) error := by
  have hfailure : (∃ error, loadOver tree builder paths = .error error) ↔
      ∃ path ∈ paths, ∃ error, Spoilt tree (configFile tree path) error := by
    simp only [loadOver_eq_error_iff, exists_firstSpoilt_iff]
  cases hload : loadOver tree builder paths with
  | ok merged => simpa [hload] using hfailure
  | error error => simpa [hload] using hfailure

/-- Where settings come from makes no difference to what is laid over them. -/
theorem loadOver_congr (h : first.withoutFiles = second.withoutFiles) (paths : List FilePath) :
    (loadOver tree first paths).map Builder.withoutFiles =
      (loadOver tree second paths).map Builder.withoutFiles := by
  induction paths generalizing first second with
  | nil => exact congrArg Except.ok h
  | cons path paths ih =>
    rw [loadOver_cons, loadOver_cons]
    cases loadFile tree (configFile tree path) with
    | error error => rfl
    | ok layer => exact ih (by rw [Builder.withoutFiles_merge, Builder.withoutFiles_merge, h])

theorem loadOver_of_unreadable (h : Unreadable tree (configFile tree path))
    (builder : Builder) (before after : List FilePath) :
    (loadOver tree builder (before ++ path :: after)).map Builder.withoutFiles =
      (loadOver tree builder (before ++ after)).map Builder.withoutFiles := by
  induction before generalizing builder with
  | nil =>
    obtain ⟨layer, hlayer, hempty⟩ := exists_loadFile_of_unreadable h
    rw [List.nil_append, loadOver_cons, hlayer]
    refine loadOver_congr ?_ after
    rw [Builder.withoutFiles_merge, hempty, Builder.merge_empty]
  | cons earlier before ih =>
    rw [List.cons_append, List.cons_append, loadOver_cons, loadOver_cons]
    cases loadFile tree (configFile tree earlier) with
    | error error => rfl
    | ok layer => exact ih _

/-- What can be loaded, and what it comes to. -/
structure LoadsUnlessSpoilt (tree : FileTree) : Prop where
  table : ∀ path table, loadTable tree path = .ok table ↔
    (Unreadable tree path ∧ table = []) ∨
      ∃ data, tree.read? path = some data ∧ ReadsAs data (.ok table)
  noTable : ∀ path error, loadTable tree path = .error error ↔ Spoilt tree path error
  /-- No key stands twice, if the reader sees to it. -/
  proper : ProperReader → ∀ path table, loadTable tree path = .ok table → Proper (.table table)
  noFile : ∀ path error, loadFile tree path = .error error ↔ Spoilt tree path error
  merged : ∀ paths, (∃ builder, loadMerged tree paths = .ok builder) ↔
    ∀ path ∈ paths, ∀ error, ¬ Spoilt tree (configFile tree path) error
  notMerged : ∀ paths error,
    loadMerged tree paths = .error error ↔ FirstSpoilt tree error paths
  /-- Without a file that cannot be read the settings would be the same. -/
  unreadable : ∀ before path after, Unreadable tree (configFile tree path) →
    (loadMerged tree (before ++ path :: after)).map Builder.withoutFiles =
      (loadMerged tree (before ++ after)).map Builder.withoutFiles

theorem loadsUnlessSpoilt_of_reader (tree : FileTree) : LoadsUnlessSpoilt tree where
  table _ _ := loadTable_eq_ok_iff
  noTable _ _ := loadTable_eq_error_iff
  proper hreader _ _ := proper_of_loadTable hreader
  noFile _ _ := loadFile_eq_error_iff
  merged _ := exists_loadOver_iff
  notMerged _ _ := loadOver_eq_error_iff
  unreadable before _ after h := loadOver_of_unreadable h ofDefaults before after

end AnyReader

/-- Whatever the reader of TOML, all files load except the spoilt ones.  With the reader of this
library, moreover, each key stands once in every table that is loaded. -/
theorem loadsUnlessSpoilt (tree : FileTree) :
    (∀ [Toml.Reader], LoadsUnlessSpoilt tree) ∧
    ∀ path table, loadTable tree path = .ok table → Proper (.table table) := by
  refine ⟨loadsUnlessSpoilt_of_reader tree, fun path table h => ?_⟩
  exact proper_of_loadTable Toml.properReader h

/-- A folder with a file in which a key of a table stands twice. -/
def repeating : FileTree :=
  FileTree.empty.write (.ofText "a.toml") "[render]\nwidth=1\nwidth=2".toUTF8.toList

theorem loadTable_repeating :
    loadTable repeating (.ofText "a.toml") = .error .repeatedKey := by cbv

/-- The file gives no table, not even an empty one, and no settings over the defaults. -/
theorem not_loads_repeating :
    (¬ ∃ table, loadTable repeating (.ofText "a.toml") = .ok table) ∧
    (¬ ∃ layer, loadFile repeating (.ofText "a.toml") = .ok layer) ∧
    ¬ ∃ builder, loadMerged repeating [.ofText "a.toml"] = .ok builder := by
  have hspoilt := loadTable_eq_error_iff.mp loadTable_repeating
  have hmerged : loadMerged repeating [.ofText "a.toml"] = .error .repeatedKey :=
    loadOver_eq_error_iff.mpr (.here hspoilt)
  rw [loadTable_repeating, loadFile_eq_error_iff.mpr hspoilt, hmerged]
  exact ⟨nofun, nofun, nofun⟩

/-! ## Layers in groups -/

/-- The settings in files that have any, from the bottom to the top. -/
def layersIn [Toml.Reader] (tree : FileTree) : List FilePath → Except LoadError (List Builder)
  | [] => .ok []
  | path :: paths => do
    let layer ← loadFile tree (configFile tree path)
    let layers ← layersIn tree paths
    return layer.toList ++ layers

theorem loadOver_eq [Toml.Reader] (builder : Builder) (paths : List FilePath) :
    loadOver tree builder paths = (layersIn tree paths).map (·.foldl Builder.merge builder) := by
  induction paths generalizing builder with
  | nil => rfl
  | cons path paths ih =>
    rw [loadOver_cons, layersIn]
    cases loadFile tree (configFile tree path) with
    | error error => rfl
    | ok layer =>
      refine (ih _).trans ?_
      cases layersIn tree paths with
      | error error => rfl
      | ok layers =>
        cases layer with
        | none =>
          rw [Option.getD_none, Builder.merge_empty]
          rfl
        | some upper => rfl

/-- Merging is associative, with each name in the place that it has got first.  So the settings in
files come to the same in any groups, provided that they can be loaded at all. -/
theorem loadMerged_in_groups [Toml.Reader] :
    (∀ first second third : Builder,
      (first.merge second).merge third = first.merge (second.merge third)) ∧
    (∀ lower upper : Builder, (lower.merge upper).patterns.names =
      (lower.patterns.names ++ upper.patterns.names).eraseDups) ∧
    ∀ tree paths,
      (∀ error, layersIn tree paths = .error error → loadMerged tree paths = .error error) ∧
      ∀ layers, layersIn tree paths = .ok layers →
        ∀ grouping : Grouping, grouping.layers = ofDefaults :: layers →
          loadMerged tree paths = .ok grouping.merged := by
  refine ⟨Builder.merge_assoc, fun lower upper => ?_, fun tree paths => ⟨?_, ?_⟩⟩
  · exact PatternMap.names_merge lower.patterns upper.patterns
  · intro error hlayers
    rw [loadMerged, loadOver_eq, hlayers]
    rfl
  · intro layers hlayers grouping hgrouping
    obtain ⟨first, rest, hfirst, hmerged⟩ := grouping.exists_merged_eq_foldl
    obtain ⟨rfl, rfl⟩ := List.cons_eq_cons.mp (hfirst.symm.trans hgrouping)
    rw [loadMerged, loadOver_eq, hlayers, hmerged]
    rfl

/-- A folder with two files of settings. -/
def layered : FileTree :=
  (FileTree.empty.write (.ofText "a.toml") "render.width=60".toUTF8.toList).write
    (.ofText "b.toml") "render.column=4".toUTF8.toList

/-- The settings in the first file. -/
def lowerLayer : Builder := { Builder.empty with width := some 60, files := ["a.toml"] }

/-- The settings in the second file. -/
def upperLayer : Builder := { Builder.empty with column := some 4, files := ["b.toml"] }

/-- The two files are merged with each other before they are laid over the defaults. -/
theorem loadMerged_in_groups_layered :
    layersIn layered [.ofText "a.toml", .ofText "b.toml"] = .ok [lowerLayer, upperLayer] ∧
    loadMerged layered [.ofText "a.toml", .ofText "b.toml"] =
      .ok (ofDefaults.merge (lowerLayer.merge upperLayer)) := by
  have hlayers : layersIn layered [.ofText "a.toml", .ofText "b.toml"] =
      .ok [lowerLayer, upperLayer] := by cbv
  refine ⟨hlayers, ?_⟩
  exact (loadMerged_in_groups.2.2 layered _).2 _ hlayers
    (.pair (.single ofDefaults) (.pair (.single lowerLayer) (.single upperLayer))) rfl

end ResourceLiterals.Settings
