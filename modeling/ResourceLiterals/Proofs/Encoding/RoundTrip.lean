import ResourceLiterals.Encoding.Resource
import ResourceLiterals.Proofs.Settings.Frozen
import ResourceLiterals.Proofs.Subformat.Integer
import ResourceLiterals.Proofs.Subformat.Lines

/-!
# From contents to literals and back

A resource whose content is accepted is encoded, and its literal is read as what the content means.
One that is not accepted is refused with the error that the subformat gives.  This holds at any
width that has room for two quotes.

* `decode_render` is about one literal, by the kind of subformat.
* `select_of_frozen` says that there always is a subformat for a path.
* `ReadsBack` says what becomes of a resource, `encode_decode` that it does, for any reader of
  patterns.
-/

namespace ResourceLiterals.Encoding

open Layout (render)
open Paths (PatternReader)
open Registry (Later)
open Settings (Config Frozen)
open Subformat (Kind ParseError UnknownName Value)

/-! ## Literals -/

theorem decode_raw (text : String) :
    decode Kind.raw.info.typeName text =
      ((Literal.parseString text).map .bytes).mapError .malformed := rfl

theorem decode_lines (text : String) :
    decode Kind.lines.info.typeName text =
      ((Literal.parseList text).map .list).mapError .malformed := rfl

theorem decode_int {text : String} {value : Int} (h : Literal.parseInteger text = .ok value) :
    decode Kind.int.info.typeName text = .ok (.int value) := by
  have hraw : Kind.int.info.typeName ≠ Kind.raw.info.typeName := by decide
  have hlines : Kind.int.info.typeName ≠ Kind.lines.info.typeName := by decide
  rw [decode, if_neg hraw, if_neg hlines, if_pos rfl, h]

theorem render_text (content : String) (width : Int) : render (.text content) width = content := by
  apply String.toList_injective
  rw [Layout.toList_render, Layout.written_text]

/-- The literal of what a content means is read as just that. -/
theorem decode_render {kind : Kind} {path : ResourcePath} {data : Bytes} {value : Value}
    {width : Int} (hwidth : 2 ≤ width) (h : kind.parse path data = .ok value) (column : Int) :
    decode kind.info.typeName (render (value.doc column width) width) = .ok value := by
  cases kind with
  | raw =>
    obtain rfl := Except.ok.inj h
    have hroom : 0 + 2 ≤ width := by omega
    rw [decode_raw, Value.doc, Literal.parseString_render, Literal.readAs_of_room hroom]
    rfl
  | lines =>
    obtain rfl := Except.ok.inj h
    rw [decode_lines, Value.doc, Subformat.parseList_render_splitLines]
    rfl
  | int =>
    cases hread : Subformat.readContent data with
    | error fault =>
      rw [Kind.parse, hread] at h
      exact nomatch h
    | ok number =>
      rw [Kind.parse, hread] at h
      obtain rfl := Except.ok.inj h
      rw [Value.doc, render_text]
      exact decode_int (Subformat.parseInteger_decimal (Subformat.natAbs_lt_of_readContent hread))

theorem eq_int_of_parse_eq_error {kind : Kind} {path : ResourcePath} {data : Bytes}
    {error : ParseError} (h : kind.parse path data = .error error) : kind = .int := by
  cases kind with
  | raw => exact nomatch h
  | lines => exact nomatch h
  | int => rfl

/-! ## The chosen subformat -/

section AnyReader

variable [PatternReader]

theorem contains_of_matchingName? {registry : Registry} {config : Config} {path : ResourcePath}
    {name : String} (h : matchingName? registry config path = some name) :
    registry.contains name = true :=
  Registry.isSome_find?_iff.mpr (List.mem_of_find?_eq_some h)

/-- A name is chosen that is registered, if the one to fall back on is. -/
theorem select_of_contains_default {registry : Registry} {config : Config} (path : ResourcePath)
    (h : registry.contains config.default = true) :
    ∃ subformat, select registry config path = .ok subformat := by
  have hchosen : registry.contains (chosenName registry config path) = true := by
    rw [chosenName]
    cases hmatch : matchingName? registry config path with
    | none => exact h
    | some name => exact contains_of_matchingName? hmatch
  obtain ⟨subformat, hfind⟩ := Option.isSome_iff_exists.mp hchosen
  exact ⟨subformat, Registry.get_of_find? hfind⟩

/-- Without patterns the default is chosen. -/
theorem select_of_filters_eq_nil {config : Config} (h : config.filters = []) (registry : Registry)
    (path : ResourcePath) : select registry config path = registry.get config.default := by
  have hmatch : matchingName? registry config path = none := by
    refine List.find?_eq_none.mpr fun name _ => ?_
    simp [Config.filter?, h]
  rw [select, chosenName, hmatch]
  rfl

theorem select_of_frozen {earlier registry : Registry} {config : Config} (path : ResourcePath)
    (h : Frozen earlier config) (hlater : Later earlier registry) :
    ∃ subformat, select registry config path = .ok subformat :=
  select_of_contains_default path (Settings.contains_default_of_later h hlater)

/-! ## Resources -/

/-- An outcome that goes with the meaning of a content: the same error, or a resource whose literal
is read as the meaning. -/
def ReadsBack (meaning : Except ParseError Value) (outcome : Except EncodeError Resource) : Prop :=
  match meaning with
  | .error error => outcome = .error (.parse error)
  | .ok value => ∃ resource, outcome = .ok resource ∧
      decode resource.info.typeName resource.text = .ok value

theorem readsBack_encodeWith {config : Config} (hwidth : 2 ≤ config.width) (subformat : Subformat)
    (path : ResourcePath) (data : Bytes) :
    ReadsBack (subformat.kind.parse path data)
      ((encodeWith subformat config path data).mapError .parse) := by
  rw [encodeWith]
  cases hparse : subformat.kind.parse path data with
  | error error => rfl
  | ok value => exact ⟨_, rfl, decode_render hwidth hparse config.column⟩

theorem encode_of_select {registry : Registry} {config : Config} {path : ResourcePath}
    {subformat : Subformat} (h : select registry config path = .ok subformat) (data : Bytes) :
    encode registry config path data = (encodeWith subformat config path data).mapError .parse := by
  rw [encode, h]

/-- Encoding there and decoding back, with a subformat that is given or chosen.  For a frozen
configuration one is always chosen, and only contents that should be integers are refused. -/
theorem encode_decode {config : Config} (hwidth : 2 ≤ config.width) (path : ResourcePath)
    (data : Bytes) :
    (∀ subformat : Subformat,
      ReadsBack (subformat.kind.parse path data)
        ((encodeWith subformat config path data).mapError .parse) ∧
      ((∃ error, subformat.kind.parse path data = .error error) → subformat.kind = .int)) ∧
    (∀ registry subformat, select registry config path = .ok subformat →
      ReadsBack (subformat.kind.parse path data) (encode registry config path data)) ∧
    ∀ earlier registry, Frozen earlier config → Later earlier registry →
      ∃ subformat, select registry config path = .ok subformat := by
  refine ⟨fun subformat => ⟨?_, ?_⟩, ?_, ?_⟩
  · exact readsBack_encodeWith hwidth subformat path data
  · rintro ⟨error, herror⟩
    exact eq_int_of_parse_eq_error herror
  · intro registry subformat hselect
    rw [encode_of_select hselect]
    exact readsBack_encodeWith hwidth subformat path data
  · intro earlier registry hfrozen hlater
    exact select_of_frozen path hfrozen hlater

end AnyReader

/-- The narrowest page, and a content that is wrapped where a blank has to be kept. -/
theorem encode_decode_narrow :
    2 ≤ ({ Config.bare with width := 2 } : Config).width ∧
    Frozen .initial { Config.bare with width := 2 } ∧
    (∃ subformat, select .initial { Config.bare with width := 2 } ["a"] = .ok subformat) ∧
    ReadsBack (.ok (.bytes [0x0A, 0x20]))
      (encode .initial { Config.bare with width := 2 } ["a"] [0x0A, 0x20]) := by
  have hwidth : 2 ≤ ({ Config.bare with width := 2 } : Config).width := by decide
  have hfrozen : Frozen .initial { Config.bare with width := 2 } :=
    .inr ⟨{ Settings.Builder.empty with width := some 2 }, by cbv⟩
  have hselect : select .initial { Config.bare with width := 2 } ["a"] = .ok (.builtIn .raw) :=
    select_of_filters_eq_nil rfl .initial ["a"]
  obtain ⟨-, hchosen, hregistered⟩ := encode_decode hwidth ["a"] [0x0A, 0x20]
  exact ⟨hwidth, hfrozen, hregistered .initial .initial hfrozen .refl,
    hchosen .initial (.builtIn .raw) hselect⟩

end ResourceLiterals.Encoding
