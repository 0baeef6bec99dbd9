import Mathlib.Data.Nat.Digits.Defs
import ResourceLiterals.Proofs.Encoding.RoundTrip
import ResourceLiterals.Proofs.Literal.Token

/-!
# Which contents are integers, and which are given back

Contents are bytes, and an integer in them is spelled in ASCII: blanks, an optional sign, at least one
digit and not too many of them, and blanks again.  Zeros in front and a plus are read and forgotten, so
only the plain decimal form of an integer is given back.

* `Spelling` is what is read, and `readContent_iff` says so.
* `Canonical` is what is written, and `canonical_iff` says so.
* `integers_exact` is about the subformat.
-/

namespace ResourceLiterals.Subformat

open Layout (render)
open Text (digitLimit digitsValue isBlank signed)

/-! ## Spellings -/

/-- The ASCII codes of the signs and of the digit zero. -/
def plus : UInt8 := 0x2B
def minus : UInt8 := 0x2D
def zero : UInt8 := 0x30

def BlankByte (byte : UInt8) : Prop :=
  0x09 ≤ byte ∧ byte ≤ 0x0D ∨ 0x1C ≤ byte ∧ byte ≤ 0x20

def DigitByte (byte : UInt8) : Prop :=
  0x30 ≤ byte ∧ byte ≤ 0x39

instance : DecidablePred BlankByte := fun _ => inferInstanceAs (Decidable (_ ∨ _))

instance : DecidablePred DigitByte := fun _ => inferInstanceAs (Decidable (_ ∧ _))

/-- The value of digits in decimal notation, the most significant one first. -/
def magnitude (digits : Bytes) : Nat :=
  Nat.ofDigits 10 (digits.reverse.map fun digit => digit.toNat - zero.toNat)

/-- What may stand in front of the digits, and the factor that it stands for. -/
def signFactors : List (Bytes × Int) :=
  [([], 1), ([plus], 1), ([minus], -1)]

/-- The contents that spell an integer. -/
inductive Spelling : Bytes → Int → Prop where
  | spelled {before sign digits after : Bytes} {factor : Int}
      (hbefore : ∀ byte ∈ before, BlankByte byte) (hsign : (sign, factor) ∈ signFactors)
      (hne : digits ≠ []) (hdigits : ∀ byte ∈ digits, DigitByte byte)
      (hlimit : digits.length ≤ 4300) (hafter : ∀ byte ∈ after, BlankByte byte) :
      Spelling (before ++ (sign ++ (digits ++ after))) (factor * magnitude digits)

/-! ## Bytes as ASCII characters -/

/-- The characters that bytes stand for in ASCII. -/
def asciiText (data : Bytes) : List Char :=
  data.map fun byte => Char.ofNat byte.toNat

theorem mapM_asciiChar?_of_ascii {data : Bytes} (h : ∀ byte ∈ data, byte < 0x80) :
    data.mapM asciiChar? = some (asciiText data) := by
  induction data with
  | nil => rfl
  | cons byte rest ih =>
    rw [List.forall_mem_cons] at h
    rw [List.mapM_cons, ih h.2, asciiChar?, if_pos h.1]
    rfl

theorem ascii_of_mapM_asciiChar? {data : Bytes} {chars : List Char}
    (h : data.mapM asciiChar? = some chars) : ∀ byte ∈ data, byte < 0x80 := by
  induction data generalizing chars with
  | nil => exact List.forall_mem_nil _
  | cons byte rest ih =>
    rw [List.mapM_cons] at h
    obtain ⟨first, hfirst, h⟩ := Option.bind_eq_some_iff.mp h
    obtain ⟨others, hothers, -⟩ := Option.bind_eq_some_iff.mp h
    have hbyte : byte < 0x80 := by
      by_contra hbyte
      rw [asciiChar?, if_neg hbyte] at hfirst
      exact nomatch hfirst
    exact List.forall_mem_cons.mpr ⟨hbyte, ih hothers⟩

theorem isBlank_ofNat_iff {byte : UInt8} (h : byte < 0x80) :
    isBlank (Char.ofNat byte.toNat) = true ↔ BlankByte byte := by
  have hcode := Literal.toNat_ofNat_byte byte
  rw [UInt8.lt_iff_toNat_lt] at h
  have hlt : byte.toNat < 128 := h
  simp only [isBlank, Text.blankRanges, Text.Ranges.holds, List.any_cons, List.any_nil, hcode,
    BlankByte, UInt8.le_iff_toNat_le]
  simp only [Bool.or_eq_true, Bool.and_eq_true, decide_eq_true_eq, Bool.or_false, UInt8.reduceToNat]
  omega

theorem isDigit_ofNat_iff (byte : UInt8) :
    (Char.ofNat byte.toNat).isDigit = true ↔ DigitByte byte := by
  have hcode := Literal.toNat_ofNat_byte byte
  have hval : (Char.ofNat byte.toNat).val.toNat = byte.toNat := hcode
  simp only [Char.isDigit, Bool.and_eq_true, decide_eq_true_eq, ge_iff_le, UInt32.le_iff_toNat_le,
    hval, DigitByte, UInt8.le_iff_toNat_le]
  exact Iff.rfl

theorem asciiText_injective : Function.Injective asciiText := by
  apply List.map_injective_iff.mpr
  intro first second h
  by_contra hne
  exact Literal.ofNat_toNat_ne hne (Literal.toNat_ofNat_byte second) h

theorem digitsValue_asciiText (digits : Bytes) :
    digitsValue (asciiText digits) = magnitude digits := by
  induction digits using List.reverseRecOn with
  | nil => rfl
  | append_singleton front digit ih =>
    have hdigit : (Char.ofNat digit.toNat).toNat - '0'.toNat = digit.toNat - zero.toNat := by
      rw [Literal.toNat_ofNat_byte]
      rfl
    have hmagnitude : magnitude (front ++ [digit]) =
        (digit.toNat - zero.toNat) + 10 * magnitude front := by
      rw [magnitude, List.reverse_concat, List.map_cons, Nat.ofDigits_cons]
      rfl
    rw [asciiText, List.map_append, List.map_singleton, Text.digitsValue_concat, hdigit,
      hmagnitude, ← ih, Nat.add_comm]
    rfl

/-- The factor of a sign is what the sign makes of a value. -/
theorem mem_signFactors_iff {sign : Bytes} {factor : Int} :
    (sign, factor) ∈ signFactors ↔
      ∃ negative, (asciiText sign, negative) ∈ Text.signs ∧ factor = signed negative 1 := by
  constructor
  · intro h
    simp only [signFactors, List.mem_cons, Prod.mk.injEq, List.not_mem_nil, or_false] at h
    rcases h with ⟨rfl, rfl⟩ | ⟨rfl, rfl⟩ | ⟨rfl, rfl⟩
    · exact ⟨false, by decide, rfl⟩
    · exact ⟨false, by decide, rfl⟩
    · exact ⟨true, by decide, rfl⟩
  · intro h
    obtain ⟨negative, hsign, rfl⟩ := h
    simp only [Text.signs, List.mem_cons, Prod.mk.injEq, List.not_mem_nil, or_false] at hsign
    rcases hsign with ⟨hsign, rfl⟩ | ⟨hsign, rfl⟩ | ⟨hsign, rfl⟩
    · rw [asciiText_injective (hsign.trans (show _ = asciiText [] from rfl))]
      decide
    · rw [asciiText_injective (hsign.trans (show _ = asciiText [plus] from rfl))]
      decide
    · rw [asciiText_injective (hsign.trans (show _ = asciiText [minus] from rfl))]
      decide

theorem signed_eq_mul (negative : Bool) (value : Nat) :
    signed negative value = signed negative 1 * value := by
  unfold signed
  split <;> simp

/-! ## Reading -/

theorem readContent_of_ascii {data : Bytes} {value : Int} (hascii : ∀ byte ∈ data, byte < 0x80)
    (hread : Text.readInteger (Text.strip (asciiText data)) = .ok value) :
    readContent data = .ok value := by
  rw [readContent, mapM_asciiChar?_of_ascii hascii]
  dsimp only
  rw [hread]

theorem ascii_of_readContent {data : Bytes} {value : Int} (h : readContent data = .ok value) :
    (∀ byte ∈ data, byte < 0x80) ∧
      Text.readInteger (Text.strip (asciiText data)) = .ok value := by
  unfold readContent at h
  split at h
  · simp at h
  · rename_i chars hchars
    have hascii := ascii_of_mapM_asciiChar? hchars
    rw [mapM_asciiChar?_of_ascii hascii] at hchars
    obtain rfl := Option.some.inj hchars
    dsimp only at h
    split at h
    · rename_i number hread
      obtain rfl := Except.ok.inj h
      exact ⟨hascii, hread⟩
    · simp at h
    · simp at h

theorem spelling_of_readContent {data : Bytes} {value : Int} (h : readContent data = .ok value) :
    Spelling data value := by
  obtain ⟨hascii, hread⟩ := ascii_of_readContent h
  obtain ⟨before, after, hbefore, hafter, hchars⟩ := Text.exists_padding (asciiText data)
  have hnumeral := Text.readInteger_iff.mp hread
  generalize Text.strip (asciiText data) = text at hchars hnumeral
  obtain ⟨hsign, hne, hdigits, hlimit⟩ := hnumeral
  rename_i sign digits negative
  -- The characters are those of the bytes, so where they are cut the bytes are.
  obtain ⟨first, rest, rfl, rfl, hrest⟩ := List.map_eq_append_iff.mp hchars.symm
  obtain ⟨middle, last, rfl, hmiddle, rfl⟩ := List.map_eq_append_iff.mp hrest
  obtain ⟨signBytes, digitBytes, rfl, rfl, rfl⟩ := List.map_eq_append_iff.mp hmiddle
  rw [List.append_assoc, signed_eq_mul]
  have hvalue := digitsValue_asciiText digitBytes
  rw [asciiText] at hvalue
  rw [hvalue]
  refine .spelled ?_ ?_ ?_ ?_ ?_ ?_
  · intro byte hbyte
    have hlow := hascii byte (by simp [hbyte])
    exact (isBlank_ofNat_iff hlow).mp (hbefore _ (List.mem_map_of_mem hbyte))
  · exact mem_signFactors_iff.mpr ⟨negative, hsign, rfl⟩
  · simpa using hne
  · intro byte hbyte
    exact (isDigit_ofNat_iff byte).mp (hdigits _ (List.mem_map_of_mem hbyte))
  · have hlength : digitBytes.length ≤ digitLimit := by simpa using hlimit
    exact hlength
  · intro byte hbyte
    have hlow := hascii byte (by simp [hbyte])
    exact (isBlank_ofNat_iff hlow).mp (hafter _ (List.mem_map_of_mem hbyte))

theorem lt_of_blankByte {byte : UInt8} (h : BlankByte byte) : byte < 0x80 := by
  simp only [BlankByte, UInt8.le_iff_toNat_le, UInt8.lt_iff_toNat_lt, UInt8.reduceToNat] at *
  omega

theorem lt_of_digitByte {byte : UInt8} (h : DigitByte byte) : byte < 0x80 := by
  simp only [DigitByte, UInt8.le_iff_toNat_le, UInt8.lt_iff_toNat_lt, UInt8.reduceToNat] at *
  omega

theorem ascii_of_spelling {data : Bytes} {value : Int} (h : Spelling data value) :
    ∀ byte ∈ data, byte < 0x80 := by
  obtain ⟨hbefore, hsign, -, hdigits, -, hafter⟩ := h
  have hsigns : ∀ factor ∈ signFactors, factor.1.all (· < 0x80) = true := by decide
  have hascii := List.all_eq_true.mp (hsigns _ hsign)
  simp only [List.forall_mem_append]
  exact ⟨fun byte hbyte => lt_of_blankByte (hbefore byte hbyte),
    fun byte hbyte => by simpa using hascii byte hbyte,
    fun byte hbyte => lt_of_digitByte (hdigits byte hbyte),
    fun byte hbyte => lt_of_blankByte (hafter byte hbyte)⟩

theorem isBlank_of_mem_asciiText {blanks : Bytes} (h : ∀ byte ∈ blanks, BlankByte byte) :
    ∀ c ∈ asciiText blanks, isBlank c = true := by
  intro c hc
  obtain ⟨byte, hbyte, rfl⟩ := List.mem_map.mp hc
  have hblank := h byte hbyte
  exact (isBlank_ofNat_iff (lt_of_blankByte hblank)).mpr hblank

theorem isDigit_of_mem_asciiText {digits : Bytes} (h : ∀ byte ∈ digits, DigitByte byte) :
    ∀ c ∈ asciiText digits, c.isDigit = true := by
  intro c hc
  obtain ⟨byte, hbyte, rfl⟩ := List.mem_map.mp hc
  exact (isDigit_ofNat_iff byte).mpr (h byte hbyte)

theorem readContent_of_spelling {data : Bytes} {value : Int} (h : Spelling data value) :
    readContent data = .ok value := by
  refine readContent_of_ascii (ascii_of_spelling h) ?_
  obtain ⟨hbefore, hsign, hne, hdigits, hlimit, hafter⟩ := h
  rename_i before sign digits after factor
  obtain ⟨negative, hsigns, rfl⟩ := mem_signFactors_iff.mp hsign
  have hchars := isDigit_of_mem_asciiText hdigits
  have hlength : (asciiText digits).length ≤ digitLimit := by
    rw [asciiText, List.length_map]
    exact hlimit
  have hnumeral : Text.Numeral (asciiText sign ++ asciiText digits)
      (signed negative (digitsValue (asciiText digits))) :=
    .signed hsigns (by simpa [asciiText] using hne) hchars hlength
  have htext : ∀ c ∈ asciiText sign ++ asciiText digits, isBlank c = false := by
    rw [List.forall_mem_append]
    exact ⟨Text.isBlank_of_mem_signs hsigns, fun c hc => Text.isBlank_of_isDigit (hchars c hc)⟩
  have hpadded : asciiText (before ++ (sign ++ (digits ++ after))) =
      asciiText before ++ ((asciiText sign ++ asciiText digits) ++ asciiText after) := by
    simp [asciiText]
  rw [hpadded, Text.strip_padded (isBlank_of_mem_asciiText hbefore) htext
    (isBlank_of_mem_asciiText hafter), Text.readInteger_iff.mpr hnumeral, signed_eq_mul,
    digitsValue_asciiText]

/-- Just the contents that spell an integer are read, as that integer. -/
theorem readContent_iff {data : Bytes} {value : Int} :
    readContent data = .ok value ↔ Spelling data value :=
  ⟨spelling_of_readContent, readContent_of_spelling⟩

/-! ## Writing -/

/-- The contents that are the decimal form of an integer. -/
inductive Canonical : Bytes → Prop where
  | zero : Canonical [zero]
  | nonzero {sign digits : Bytes} {first : UInt8} (hsign : sign = [] ∨ sign = [minus])
      (hfirst : DigitByte first) (hne : first ≠ zero) (hdigits : ∀ byte ∈ digits, DigitByte byte)
      (hlimit : (first :: digits).length ≤ 4300) : Canonical (sign ++ first :: digits)

/-- Integers are written in ASCII. -/
theorem toNat_lt_of_mem_toString (value : Int) : ∀ c ∈ (toString value).toList, c.toNat < 128 := by
  have hdigit (c : Char) (hc : c.isDigit = true) : c.toNat < 128 := by
    have hcode := Text.toNat_of_isDigit hc
    omega
  exact Text.forall_mem_toString (by decide) hdigit value

theorem ascii_writeContent (value : Int) : ∀ byte ∈ writeContent value, byte < 0x80 := by
  intro byte hbyte
  obtain ⟨c, hc, rfl⟩ := List.mem_map.mp hbyte
  have hlt := toNat_lt_of_mem_toString value c hc
  rw [UInt8.lt_iff_toNat_lt, UInt8.toNat_ofNat']
  show c.toNat % 256 < 128
  omega

theorem asciiText_writeContent (value : Int) :
    asciiText (writeContent value) = (toString value).toList := by
  rw [asciiText, writeContent, List.map_map, decimal]
  conv_rhs => rw [← List.map_id (toString value).toList]
  apply List.map_congr_left
  intro c hc
  have hlt := toNat_lt_of_mem_toString value c hc
  show Char.ofNat (UInt8.ofNat c.toNat).toNat = c
  rw [UInt8.toNat_ofNat', Nat.mod_eq_of_lt (by omega), Char.ofNat_toNat]

theorem readContent_writeContent {value : Int} (h : value.natAbs < 10 ^ digitLimit) :
    readContent (writeContent value) = .ok value := by
  apply readContent_of_ascii (ascii_writeContent value)
  rw [asciiText_writeContent, Text.strip_toString, Text.readInteger_toString h]

/-- Digits with none but the last of them zero are those of their value. -/
theorem toDigits_magnitude {first : UInt8} {digits : Bytes} (hne : first ≠ zero)
    (hdigits : ∀ byte ∈ first :: digits, DigitByte byte) :
    0 < magnitude (first :: digits) ∧
      Nat.toDigits 10 (magnitude (first :: digits)) = asciiText (first :: digits) := by
  have hchars := isDigit_of_mem_asciiText hdigits
  have hhead : (asciiText (first :: digits)).head? ≠ some '0' := by
    have hfirst : Char.ofNat first.toNat ≠ '0' := Literal.ofNat_toNat_ne hne rfl
    simpa [asciiText] using hfirst
  have hwritten := Text.toDigits_digitsValue (by simp [asciiText]) hchars hhead
  rw [digitsValue_asciiText] at hwritten
  refine ⟨?_, hwritten⟩
  rcases Nat.eq_zero_or_pos (magnitude (first :: digits)) with hzero | hpos
  · rw [hzero] at hwritten
    rw [← hwritten] at hhead
    exact absurd rfl hhead
  · exact hpos

theorem exists_value_of_canonical {data : Bytes} (h : Canonical data) :
    ∃ value : Int, value.natAbs < 10 ^ digitLimit ∧ writeContent value = data := by
  cases h with
  | zero => exact ⟨0, Nat.pow_pos (by decide), by decide⟩
  | @nonzero sign digits first hsign hfirst hne hdigits hlimit =>
    have hall : ∀ byte ∈ first :: digits, DigitByte byte :=
      List.forall_mem_cons.mpr ⟨hfirst, hdigits⟩
    obtain ⟨hpos, hwritten⟩ := toDigits_magnitude hne hall
    have hlt : magnitude (first :: digits) < 10 ^ digitLimit := by
      have hvalue := Text.digitsValue_lt_pow (isDigit_of_mem_asciiText hall)
      rw [digitsValue_asciiText, asciiText, List.length_map] at hvalue
      exact Nat.lt_of_lt_of_le hvalue (Nat.pow_le_pow_right (by decide) hlimit)
    rcases hsign with rfl | rfl
    · refine ⟨magnitude (first :: digits), hlt, asciiText_injective ?_⟩
      rw [asciiText_writeContent, Text.toList_toString, if_neg (by omega), Int.natAbs_natCast,
        hwritten]
      rfl
    · refine ⟨-magnitude (first :: digits), by omega, asciiText_injective ?_⟩
      rw [asciiText_writeContent, Text.toList_toString, if_pos (by omega), Int.natAbs_neg,
        Int.natAbs_natCast, hwritten]
      rfl

theorem canonical_writeContent {value : Int} (h : value.natAbs < 10 ^ digitLimit) :
    Canonical (writeContent value) := by
  have hchars := asciiText_writeContent value
  rw [Text.toList_toString] at hchars
  rcases Nat.eq_zero_or_pos value.natAbs with hzero | hpos
  · have hdata : writeContent value = [zero] := by
      rw [Int.natAbs_eq_zero.mp hzero]
      decide
    rw [hdata]
    exact .zero
  · have hhead := Text.head?_toDigits_ne hpos
    have hlength := (Nat.length_toDigits_le_iff (by decide) (by decide)).mpr h
    obtain ⟨sign, written, hdata, hsign, hwritten⟩ := List.map_eq_append_iff.mp hchars
    cases written with
    | nil => exact absurd hwritten.symm Nat.toDigits_ne_nil
    | cons first digits =>
      rw [← hwritten, List.length_map] at hlength
      rw [← hwritten] at hhead
      have hdigits : ∀ byte ∈ first :: digits, DigitByte byte := by
        intro byte hbyte
        have hmem : Char.ofNat byte.toNat ∈ Nat.toDigits 10 value.natAbs := by
          rw [← hwritten]
          exact List.mem_map_of_mem hbyte
        exact (isDigit_ofNat_iff byte).mp
          (Nat.isDigit_of_mem_toDigits (by decide) (by decide) hmem)
      have hfirst : first ≠ zero := by
        rintro rfl
        exact hhead rfl
      have hminus : sign = [] ∨ sign = [minus] := by
        split at hsign
        · exact .inr (asciiText_injective (hsign.trans (show _ = asciiText [minus] from rfl)))
        · exact .inl (List.map_eq_nil_iff.mp hsign)
      rw [hdata]
      rw [List.forall_mem_cons] at hdigits
      exact .nonzero hminus hdigits.1 hfirst hdigits.2 hlength

/-- Just the canonical contents are written, if the integer is within the limit. -/
theorem canonical_iff {data : Bytes} :
    Canonical data ↔ ∃ value : Int, value.natAbs < 10 ^ digitLimit ∧ writeContent value = data := by
  constructor
  · exact exists_value_of_canonical
  · rintro ⟨value, hlimit, rfl⟩
    exact canonical_writeContent hlimit

/-! ## The subformat -/

section Subformat

variable {path : ResourcePath} {data : Bytes}

theorem parse_int_of_ok {value : Int} (h : readContent data = .ok value) :
    Kind.int.parse path data = .ok (.int value) := by
  rw [Kind.parse, h]
  rfl

theorem parse_int_of_error {fault : IntegerFault} (h : readContent data = .error fault) :
    Kind.int.parse path data = .error ⟨path, "int", fault.reason⟩ := by
  rw [Kind.parse, h]
  rfl

theorem parse_int_eq_ok_iff {value : Int} :
    Kind.int.parse path data = .ok (.int value) ↔ Spelling data value := by
  rw [← readContent_iff]
  cases hread : readContent data with
  | error fault => simp [parse_int_of_error hread]
  | ok number => simp [parse_int_of_ok hread]

theorem parse_int_eq_error_iff :
    (∃ reason, Kind.int.parse path data = .error ⟨path, "int", reason⟩) ↔
      ∀ value, ¬ Spelling data value := by
  simp only [← readContent_iff]
  cases hread : readContent data with
  | error fault => simp [parse_int_of_error hread]
  | ok number => simp [parse_int_of_ok hread]

theorem roundTrips_int_iff :
    Encoding.roundTrips .int path data = .ok true ↔ Canonical data := by
  have hround (value : Int) (h : readContent data = .ok value) :
      Encoding.roundTrips .int path data = .ok (writeContent value == data) := by
    rw [Encoding.roundTrips, parse_int_of_ok h]
    rfl
  rw [canonical_iff]
  constructor
  · intro h
    cases hread : readContent data with
    | error fault =>
      rw [Encoding.roundTrips, parse_int_of_error hread] at h
      exact nomatch h
    | ok value =>
      rw [hround value hread] at h
      have hdata : (writeContent value == data) = true := Except.ok.inj h
      exact ⟨value, natAbs_lt_of_readContent hread, by simpa using hdata⟩
  · rintro ⟨value, hlimit, hdata⟩
    have hread := readContent_writeContent hlimit
    rw [hdata] at hread
    rw [hround value hread, hdata, beq_self_eq_true]

end Subformat

/-- Which contents are read as integers, which of them are written back as they were, and that every
integer within the limit is read from its content and from its literal. -/
theorem integers_exact (path : ResourcePath) :
    (∀ data,
      (∀ value, Kind.int.parse path data = .ok (.int value) ↔ Spelling data value) ∧
      ((∃ reason, Kind.int.parse path data = .error ⟨path, "int", reason⟩) ↔
        ∀ value, ¬ Spelling data value) ∧
      (Encoding.roundTrips .int path data = .ok true ↔ Canonical data)) ∧
    ∀ value : Int, value.natAbs < 10 ^ digitLimit →
      Kind.int.parse path (Value.int value).toBytes = .ok (.int value) ∧
      ∀ column width page : Int,
        Literal.parseInteger (render ((Value.int value).doc column width) page) = .ok value := by
  constructor
  · intro data
    exact ⟨fun _ => parse_int_eq_ok_iff, parse_int_eq_error_iff, roundTrips_int_iff⟩
  · intro value hlimit
    refine ⟨parse_int_of_ok (readContent_writeContent hlimit), ?_⟩
    intro column width page
    rw [Value.doc, Encoding.render_text]
    exact parseInteger_decimal hlimit

/-- A content that is read but not given back, and an integer that is. -/
theorem integers_exact_signed :
    Kind.int.parse ["a"] [0x20, plus, zero, 0x37, 0x0A] = .ok (.int 7) ∧
    (-42 : Int).natAbs < 10 ^ digitLimit ∧
    Kind.int.parse ["a"] (Value.int (-42)).toBytes = .ok (.int (-42)) ∧
    Literal.parseInteger (render ((Value.int (-42)).doc 0 1) 1) = .ok (-42) := by
  have hspelling : Spelling ([0x20] ++ ([plus] ++ ([zero, 0x37] ++ [0x0A])))
      (1 * magnitude [zero, 0x37]) :=
    .spelled (List.forall_mem_singleton.mpr (by decide)) (by decide) (by decide)
      (List.forall_mem_cons.mpr ⟨by decide, List.forall_mem_singleton.mpr (by decide)⟩) (by decide)
      (List.forall_mem_singleton.mpr (by decide))
  have hlimit : (-42 : Int).natAbs < 10 ^ digitLimit :=
    Nat.lt_of_lt_of_le (show 42 < 10 ^ 2 by decide) (Nat.pow_le_pow_right (by decide) (by decide))
  obtain ⟨hcontents, hvalues⟩ := integers_exact ["a"]
  obtain ⟨hcontent, hliteral⟩ := hvalues (-42) hlimit
  exact ⟨((hcontents _).1 7).mpr hspelling, hlimit, hcontent, hliteral 0 1 1⟩

end ResourceLiterals.Subformat
