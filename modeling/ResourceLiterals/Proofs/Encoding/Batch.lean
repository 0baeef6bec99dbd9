import ResourceLiterals.Proofs.Encoding.RoundTrip

/-!
# Many resources at a time

Under a configuration that was frozen, every item comes to a resource or to a failure, whatever
becomes of the others, and a report holds the two apart.

* `encode_cases` says what can become of one item.
* `encoded?` and `failure?` are what an item adds to a report, `encodeAll_eq` says that it does.
* `encodeAll_isolates` is about reports as a whole, for any reader of patterns.
-/

namespace ResourceLiterals.Encoding

open Paths (PatternReader)
open Registry (Later)
open Settings (Config Frozen)
open Subformat (Kind ParseError Value)

/-! ## One item -/

theorem path_of_parse_eq_error {kind : Kind} {path : ResourcePath} {data : Bytes}
    {error : ParseError} (h : kind.parse path data = .error error) : error.path = path := by
  obtain rfl := eq_int_of_parse_eq_error h
  cases hread : Subformat.readContent data with
  | ok number =>
    rw [Kind.parse, hread] at h
    cases h
  | error fault =>
    rw [Kind.parse, hread] at h
    obtain rfl := Except.error.inj h
    rfl

/-- Integers that were read are short enough to be written. -/
theorem natAbs_lt_of_parse {kind : Kind} {path : ResourcePath} {data : Bytes} {value : Int}
    (h : kind.parse path data = .ok (.int value)) : value.natAbs < 10 ^ Text.digitLimit := by
  cases kind with
  | raw => cases h
  | lines => cases h
  | int =>
    cases hread : Subformat.readContent data with
    | error fault =>
      rw [Kind.parse, hread] at h
      cases h
    | ok number =>
      rw [Kind.parse, hread] at h
      obtain rfl := Value.int.inj (Except.ok.inj h)
      exact Subformat.natAbs_lt_of_readContent hread

section AnyReader

variable [PatternReader] {earlier registry : Registry} {config : Config}

/-- An item is encoded, or its content is not accepted. -/
theorem encode_cases (hfrozen : Frozen earlier config) (hlater : Later earlier registry)
    (path : ResourcePath) (data : Bytes) :
    (∃ resource, encode registry config path data = .ok resource) ∨
      ∃ error, encode registry config path data = .error (.parse error) ∧ error.path = path := by
  obtain ⟨subformat, hselect⟩ := select_of_frozen path hfrozen hlater
  rw [encode_of_select hselect, encodeWith]
  cases hparse : subformat.kind.parse path data with
  | error error => exact .inr ⟨error, rfl, path_of_parse_eq_error hparse⟩
  | ok value => exact .inl ⟨_, rfl⟩

/-- What an item adds to the resources of a report. -/
def encoded? (registry : Registry) (config : Config) (item : ResourcePath × Bytes) :
    Option Resource :=
  match encode registry config item.1 item.2 with
  | .ok resource => some resource
  | .error _ => none

/-- What an item adds to the failures of a report: its path, and what the error says. -/
def failure? (registry : Registry) (config : Config) (item : ResourcePath × Bytes) :
    Option ParseError :=
  match encode registry config item.1 item.2 with
  | .error (.parse error) => some ⟨item.1, error.subformat, error.reason⟩
  | _ => none

/-- Every item adds to one of the two. -/
theorem contribution_cases (hfrozen : Frozen earlier config) (hlater : Later earlier registry)
    (item : ResourcePath × Bytes) :
    (∃ resource, encode registry config item.1 item.2 = .ok resource ∧
      encoded? registry config item = some resource ∧ failure? registry config item = none) ∨
    ∃ error, encode registry config item.1 item.2 = .error (.parse error) ∧
      error.path = item.1 ∧
      encoded? registry config item = none ∧ failure? registry config item = some error := by
  rcases encode_cases hfrozen hlater item.1 item.2 with
    ⟨resource, hencode⟩ | ⟨error, hencode, hpath⟩
  · refine .inl ⟨resource, hencode, ?_, ?_⟩
    · rw [encoded?, hencode]
    · rw [failure?, hencode]
  · refine .inr ⟨error, hencode, hpath, ?_, ?_⟩
    · rw [encoded?, hencode]
    · rw [failure?, hencode, ← hpath]

/-! ## All items -/

theorem encodeAll_eq (hfrozen : Frozen earlier config) (hlater : Later earlier registry)
    (items : List (ResourcePath × Bytes)) :
    encodeAll registry config items =
      .ok ⟨items.filterMap (encoded? registry config),
        items.filterMap (failure? registry config)⟩ := by
  induction items with
  | nil => rfl
  | cons item rest ih =>
    rcases contribution_cases hfrozen hlater item with
      ⟨resource, hencode, hencoded, hfailure⟩ | ⟨error, hencode, -, hencoded, hfailure⟩
    · rw [encodeAll, hencode, ih, List.filterMap_cons_some hencoded,
        List.filterMap_cons_none hfailure]
      rfl
    · rw [encodeAll, hencode, ih, List.filterMap_cons_none hencoded,
        List.filterMap_cons_some hfailure]
      rfl

theorem length_contributions (hfrozen : Frozen earlier config) (hlater : Later earlier registry)
    (items : List (ResourcePath × Bytes)) :
    (items.filterMap (encoded? registry config)).length +
      (items.filterMap (failure? registry config)).length = items.length := by
  induction items with
  | nil => rfl
  | cons item rest ih =>
    rcases contribution_cases hfrozen hlater item with
      ⟨resource, -, hencoded, hfailure⟩ | ⟨error, -, -, hencoded, hfailure⟩
    · rw [List.filterMap_cons_some hencoded, List.filterMap_cons_none hfailure]
      simp only [List.length_cons]
      omega
    · rw [List.filterMap_cons_none hencoded, List.filterMap_cons_some hfailure]
      simp only [List.length_cons]
      omega

/-- Items are encoded one by one, each adds one entry to the report, and nothing ends the run: there
always is a subformat for an item, and no integer that is read is too long to be written. -/
theorem encodeAll_isolates (hfrozen : Frozen earlier config) (hlater : Later earlier registry) :
    (∀ item : ResourcePath × Bytes,
      (∃ resource, encode registry config item.1 item.2 = .ok resource ∧
        encoded? registry config item = some resource ∧ failure? registry config item = none) ∨
      ∃ error, encode registry config item.1 item.2 = .error (.parse error) ∧
        encoded? registry config item = none ∧
        failure? registry config item = some ⟨item.1, error.subformat, error.reason⟩) ∧
    (∀ items, ∃ report, encodeAll registry config items = .ok report ∧
      report.encoded = items.filterMap (encoded? registry config) ∧
      report.failures = items.filterMap (failure? registry config) ∧
      report.encoded.length + report.failures.length = items.length ∧
      (report.ok = true ↔ report.failures = [])) ∧
    (∀ former latter first second, encodeAll registry config former = .ok first →
      encodeAll registry config latter = .ok second →
      encodeAll registry config (former ++ latter) =
        .ok ⟨first.encoded ++ second.encoded, first.failures ++ second.failures⟩) ∧
    ∀ (kind : Kind) path data value, kind.parse path data = .ok (.int value) →
      value.natAbs < 10 ^ Text.digitLimit := by
  refine ⟨fun item => ?_, fun items => ?_, ?_, fun kind path data value => natAbs_lt_of_parse⟩
  · rcases contribution_cases hfrozen hlater item with h | ⟨error, hencode, hpath, hencoded, hfailure⟩
    · exact .inl h
    · exact .inr ⟨error, hencode, hencoded, hpath ▸ hfailure⟩
  · exact ⟨_, encodeAll_eq hfrozen hlater items, rfl, rfl,
      length_contributions hfrozen hlater items, List.isEmpty_iff⟩
  · intro former latter first second hfirst hsecond
    rw [encodeAll_eq hfrozen hlater] at hfirst hsecond ⊢
    obtain rfl := Except.ok.inj hfirst
    obtain rfl := Except.ok.inj hsecond
    rw [List.filterMap_append, List.filterMap_append]

end AnyReader

/-- A configuration that takes all resources for integers. -/
def integersOnly : Config := { Config.bare with default := "int" }

theorem frozen_integersOnly : Frozen .initial integersOnly :=
  .inr ⟨{ Settings.Builder.empty with default := some "int" },
    Settings.Builder.toConfig_of_pairwise (by decide)⟩

/-- One item of two fails, with another subformat registered since the configuration was frozen. -/
theorem encodeAll_isolates_mixed :
    Frozen .initial integersOnly ∧ Later .initial ⟨[("csv", .builtIn .raw)]⟩ ∧
    ∃ report, encodeAll ⟨[("csv", .builtIn .raw)]⟩ integersOnly [(["n"], [0x37]), (["x"], [0x78])] =
        .ok report ∧
      report.encoded.map (·.text) = ["7"] ∧
      report.failures = [⟨["x"], "int", "not a decimal integer: 'x'"⟩] := by
  have hlater : Later .initial ⟨[("csv", .builtIn .raw)]⟩ := .single ⟨"csv", .builtIn .raw, rfl⟩
  have hselect (path : ResourcePath) :
      select ⟨[("csv", .builtIn .raw)]⟩ integersOnly path = .ok (.builtIn .int) :=
    select_of_filters_eq_nil rfl _ path
  have hnumber : encode ⟨[("csv", .builtIn .raw)]⟩ integersOnly ["n"] [0x37] =
      .ok ⟨["n"], Kind.int.info, Layout.render (.text "7") 80, none, none⟩ := by
    rw [encode_of_select (hselect ["n"])]
    rfl
  have hother : encode ⟨[("csv", .builtIn .raw)]⟩ integersOnly ["x"] [0x78] =
      .error (.parse ⟨["x"], "int", "not a decimal integer: 'x'"⟩) := by
    rw [encode_of_select (hselect ["x"])]
    rfl
  obtain ⟨-, hreport, happend, -⟩ := encodeAll_isolates frozen_integersOnly hlater
  obtain ⟨first, hfirst, hencoded, hfailures, -⟩ := hreport [(["n"], [0x37])]
  obtain ⟨second, hsecond, hencoded', hfailures', -⟩ := hreport [(["x"], [0x78])]
  refine ⟨frozen_integersOnly, hlater, _, happend _ _ first second hfirst hsecond, ?_, ?_⟩
  · simp [hencoded, hencoded', encoded?, hnumber, hother, render_text]
  · simp [hfailures, hfailures', failure?, hnumber, hother]

end ResourceLiterals.Encoding
