import Mathlib.Algebra.Group.Nat.Defs
import Mathlib.Data.List.Basic
import Mathlib.Data.List.Induction
import Mathlib.Data.List.TakeWhile
import ResourceLiterals.Text.Numeral

/-!
# Decimal numerals read and written

Integers are written as Lean writes them, with a minus and without leading zeros, and such a text is
read as the integer.  Other texts are read as integers too: those with a plus, or with zeros in front.
The one limit is the number of digits.

* `Numeral` is what is read, and `readInteger_iff` says so.
* `toDigits_digitsValue` says that digits without a leading zero are how their value is written.
* `readInteger_toString` is the way there and back; `natAbs_lt_of_readInteger` says that what has
  been read is within the limit, so it can be written and read again.
* `strip_padded` and `exists_padding` are about the blanks around a text, of which `strip_toString`
  says that there are none to be taken off.
-/

namespace ResourceLiterals.Text

/-! ## The value of digits -/

theorem digitsValue_eq_ofDigitChars (digits : List Char) :
    digitsValue digits = Nat.ofDigitChars 10 digits 0 := by
  rw [digitsValue, placeValue, List.foldl_map, Nat.ofDigitChars_eq_foldl]

theorem toNat_of_isDigit {c : Char} (h : c.isDigit = true) : 48 ≤ c.toNat ∧ c.toNat ≤ 57 := by
  simpa [Char.isDigit, UInt32.le_iff_toNat_le] using h

theorem digitsValue_concat (digits : List Char) (digit : Char) :
    digitsValue (digits ++ [digit]) = 10 * digitsValue digits + (digit.toNat - '0'.toNat) := by
  simp only [digitsValue, placeValue, List.map_append, List.foldl_append, List.map_cons,
    List.map_nil, List.foldl_cons, List.foldl_nil]

/-- So many digits do not reach beyond the power of ten. -/
theorem digitsValue_lt_pow {digits : List Char} (h : ∀ digit ∈ digits, digit.isDigit = true) :
    digitsValue digits < 10 ^ digits.length := by
  induction digits using List.reverseRecOn with
  | nil => decide
  | append_singleton front digit ih =>
    have hfront := ih fun other hother => h other (List.mem_append_left _ hother)
    have hdigit := toNat_of_isDigit (h digit List.mem_concat_self)
    have hvalue : digit.toNat - '0'.toNat ≤ 9 := by
      show digit.toNat - 48 ≤ 9
      omega
    rw [digitsValue_concat, List.length_append, List.length_singleton, Nat.pow_succ]
    omega

/-! ## Digits without a leading zero -/

theorem digitChar_of_isDigit {c : Char} (h : c.isDigit = true) :
    (c.toNat - '0'.toNat).digitChar = c ∧ c.toNat - '0'.toNat < 10 := by
  have hcode := toNat_of_isDigit h
  have all : ∀ value < 10, (value : Nat).digitChar = Char.ofNat (48 + value) := by decide
  have hvalue : c.toNat - 48 < 10 := by omega
  have hc : 48 + (c.toNat - 48) = c.toNat := by omega
  show (c.toNat - 48).digitChar = c ∧ c.toNat - 48 < 10
  rw [all _ hvalue, hc, Char.ofNat_toNat]
  exact ⟨rfl, hvalue⟩

/-- Only zero is written with a zero in front. -/
theorem head?_toDigits_ne {value : Nat} (h : 0 < value) :
    (Nat.toDigits 10 value).head? ≠ some '0' := by
  induction value using Nat.strongRecOn with
  | ind value ih =>
    by_cases hsmall : value < 10
    · have all : ∀ value < 10, 0 < value → (value : Nat).digitChar ≠ '0' := by decide
      rw [Nat.toDigits_of_lt_base hsmall]
      simpa using all value hsmall h
    · have hrest := ih (value / 10) (by omega) (by omega)
      rw [Nat.toDigits_of_base_le (by decide) (by omega),
        List.head?_append_of_ne_nil _ Nat.toDigits_ne_nil]
      exact hrest

/-- Digits without a leading zero are how their value is written. -/
theorem toDigits_digitsValue {digits : List Char} (hne : digits ≠ [])
    (hdigits : ∀ digit ∈ digits, digit.isDigit = true) (hfirst : digits.head? ≠ some '0') :
    Nat.toDigits 10 (digitsValue digits) = digits := by
  induction digits using List.reverseRecOn with
  | nil => exact absurd rfl hne
  | append_singleton front digit ih =>
    obtain ⟨hchar, hlt⟩ := digitChar_of_isDigit (hdigits digit (by simp))
    by_cases hfront : front = []
    · subst hfront
      have hvalue : digitsValue [digit] = digit.toNat - '0'.toNat := by
        rw [← List.nil_append [digit], digitsValue_concat]
        exact Nat.zero_add _
      rw [List.nil_append, hvalue, Nat.toDigits_of_lt_base hlt, hchar]
    · rw [List.head?_append_of_ne_nil _ hfront] at hfirst
      have hwritten := ih hfront (fun other hother => hdigits other (by simp [hother])) hfirst
      have hpos : 0 < digitsValue front := by
        rcases Nat.eq_zero_or_pos (digitsValue front) with hzero | hpos
        · rw [hzero] at hwritten
          rw [← hwritten] at hfirst
          exact absurd rfl hfirst
        · exact hpos
      rw [digitsValue_concat, ← Nat.toDigits_append_toDigits (by decide) hpos hlt, hwritten,
        Nat.toDigits_of_lt_base hlt, hchar]

/-! ## Integers -/

/-- The signs of a numeral, and whether they are a minus. -/
def signs : List (List Char × Bool) :=
  [([], false), (['+'], false), (['-'], true)]

/-- A numeral and the integer that it stands for. -/
inductive Numeral : List Char → Int → Prop where
  | signed {sign digits : List Char} {negative : Bool} (hsign : (sign, negative) ∈ signs)
      (hne : digits ≠ []) (hdigits : ∀ digit ∈ digits, digit.isDigit = true)
      (hlimit : digits.length ≤ digitLimit) :
      Numeral (sign ++ digits) (signed negative (digitsValue digits))

/-- A sign and what follows it are the text. -/
theorem splitSign_mem_signs (chars : List Char) :
    ∃ sign, (sign, (splitSign chars).1) ∈ signs ∧ sign ++ (splitSign chars).2 = chars := by
  unfold splitSign
  split
  · exact ⟨['-'], by simp [signs], rfl⟩
  · exact ⟨['+'], by simp [signs], rfl⟩
  · exact ⟨[], by simp [signs], rfl⟩

theorem splitSign_of_isDigit {digits : List Char} (h : ∀ digit ∈ digits, digit.isDigit = true) :
    splitSign digits = (false, digits) := by
  unfold splitSign
  split
  · exact absurd (h '-' List.mem_cons_self) (by decide)
  · exact absurd (h '+' List.mem_cons_self) (by decide)
  · rfl

theorem splitSign_append {sign digits : List Char} {negative : Bool}
    (hsign : (sign, negative) ∈ signs) (hdigits : ∀ digit ∈ digits, digit.isDigit = true) :
    splitSign (sign ++ digits) = (negative, digits) := by
  simp only [signs, List.mem_cons, Prod.mk.injEq, List.not_mem_nil, or_false] at hsign
  rcases hsign with ⟨rfl, rfl⟩ | ⟨rfl, rfl⟩ | ⟨rfl, rfl⟩
  · exact splitSign_of_isDigit hdigits
  · rfl
  · rfl

/-- Just the numerals are read, as what they stand for. -/
theorem readInteger_iff {chars : List Char} {value : Int} :
    readInteger chars = .ok value ↔ Numeral chars value := by
  constructor
  · intro h
    obtain ⟨sign, hsign, hchars⟩ := splitSign_mem_signs chars
    unfold readInteger at h
    generalize splitSign chars = split at h hsign hchars
    dsimp only at h
    split at h
    · simp at h
    · rename_i hdigits
      split at h
      · simp at h
      · rename_i hlimit
        have hall : split.2 ≠ [] ∧ ∀ digit ∈ split.2, digit.isDigit = true := by
          simpa using hdigits
        rw [← Except.ok.inj h, ← hchars]
        exact .signed hsign hall.1 hall.2 (by omega)
  · rintro ⟨hsign, hne, hdigits, hlimit⟩
    rename_i sign digits negative
    have hall : digits.all Char.isDigit = true := by simpa using hdigits
    have hempty : digits.isEmpty = false := by simpa using hne
    rw [readInteger, splitSign_append hsign hdigits]
    dsimp only
    rw [hempty, hall, if_neg (by simp), if_neg (by omega)]

theorem natAbs_signed (negative : Bool) (value : Nat) : (signed negative value).natAbs = value := by
  unfold signed
  split <;> omega

/-- What has been read as an integer has at most so many digits. -/
theorem natAbs_lt_of_readInteger {chars : List Char} {value : Int}
    (h : readInteger chars = .ok value) : value.natAbs < 10 ^ digitLimit := by
  obtain ⟨-, -, hdigits, hlimit⟩ := readInteger_iff.mp h
  have hlt := digitsValue_lt_pow hdigits
  have hle := Nat.pow_le_pow_right (show 0 < 10 by decide) hlimit
  rw [natAbs_signed]
  omega

/-- The digits of an integer, after a minus if it is negative. -/
theorem toList_toString (value : Int) :
    (toString value).toList =
      (if value < 0 then ['-'] else []) ++ Nat.toDigits 10 value.natAbs := by
  rw [Int.toString_eq_repr, Int.repr_eq_if]
  by_cases hsign : 0 ≤ value
  · have habs : value.toNat = value.natAbs := by omega
    rw [if_pos hsign, if_neg (by omega), Nat.toList_repr, habs, List.nil_append]
  · have habs : (-value).toNat = value.natAbs := by omega
    rw [if_neg hsign, if_pos (by omega), String.toList_append, Nat.toList_repr, habs]
    rfl

/-- An integer is written as a numeral, if it is within the limit. -/
theorem numeral_toString {value : Int} (h : value.natAbs < 10 ^ digitLimit) :
    Numeral (toString value).toList value := by
  have hdigits : ∀ digit ∈ Nat.toDigits 10 value.natAbs, digit.isDigit = true := fun _ =>
    Nat.isDigit_of_mem_toDigits (by decide) (by decide)
  have hlimit := (Nat.length_toDigits_le_iff (by decide) (by decide)).mpr h
  have hsign : (if value < 0 then ['-'] else [], decide (value < 0)) ∈ signs := by
    by_cases hneg : value < 0
    · simp [hneg, signs]
    · simp [hneg, signs]
  have hvalue : signed (decide (value < 0)) value.natAbs = value := by
    unfold signed
    by_cases hneg : value < 0
    · rw [decide_eq_true hneg, if_pos rfl]
      omega
    · rw [decide_eq_false hneg, if_neg Bool.false_ne_true]
      omega
  have hnumeral := Numeral.signed hsign Nat.toDigits_ne_nil hdigits hlimit
  rwa [digitsValue_eq_ofDigitChars, Nat.ofDigitChars_ten_toDigits, hvalue, ← toList_toString]
    at hnumeral

theorem readInteger_toString {value : Int} (h : value.natAbs < 10 ^ digitLimit) :
    readInteger (toString value).toList = .ok value :=
  readInteger_iff.mpr (numeral_toString h)

/-! ## Blanks -/

/-- Blanks around a text without any are taken off. -/
theorem strip_padded {before chars after : List Char} (hbefore : ∀ c ∈ before, isBlank c = true)
    (hchars : ∀ c ∈ chars, isBlank c = false) (hafter : ∀ c ∈ after, isBlank c = true) :
    strip (before ++ (chars ++ after)) = chars := by
  have hkeep (items : List Char) (hitems : ∀ c ∈ items, isBlank c = false) :
      items.dropWhile isBlank = items :=
    List.dropWhile_eq_self_iff.mpr fun hpos => by simp [hitems _ (List.getElem_mem hpos)]
  rw [strip, stripWhile, List.dropWhile_append_of_pos hbefore]
  cases chars with
  | nil =>
    rw [List.nil_append, List.dropWhile_eq_nil_iff.mpr hafter]
    rfl
  | cons c rest =>
    have hc : ¬ isBlank c = true := by simp [hchars c List.mem_cons_self]
    rw [List.cons_append, List.dropWhile_cons_of_neg hc, ← List.cons_append, dropEndWhile,
      List.reverse_append,
      List.dropWhile_append_of_pos fun c hc => hafter c (List.mem_reverse.mp hc), hkeep,
      List.reverse_reverse]
    exact fun c hc => hchars c (List.mem_reverse.mp hc)

/-- What is taken off at either end are blanks. -/
theorem exists_padding (chars : List Char) :
    ∃ before after, (∀ c ∈ before, isBlank c = true) ∧ (∀ c ∈ after, isBlank c = true) ∧
      before ++ (strip chars ++ after) = chars := by
  refine ⟨chars.takeWhile isBlank,
    ((chars.dropWhile isBlank).reverse.takeWhile isBlank).reverse, ?_, ?_, ?_⟩
  · intro c hc
    exact List.mem_takeWhile_imp hc
  · intro c hc
    exact List.mem_takeWhile_imp (List.mem_reverse.mp hc)
  · rw [strip, stripWhile, dropEndWhile, ← List.reverse_append, List.takeWhile_append_dropWhile,
      List.reverse_reverse, List.takeWhile_append_dropWhile]

theorem isBlank_of_mem_signs {sign : List Char} {negative : Bool} (h : (sign, negative) ∈ signs) :
    ∀ c ∈ sign, isBlank c = false := by
  simp only [signs, List.mem_cons, Prod.mk.injEq, List.not_mem_nil, or_false] at h
  rcases h with ⟨rfl, -⟩ | ⟨rfl, -⟩ | ⟨rfl, -⟩
  · exact List.forall_mem_nil _
  · exact List.forall_mem_singleton.mpr rfl
  · exact List.forall_mem_singleton.mpr rfl

theorem strip_of_not_isBlank {chars : List Char} (h : ∀ c ∈ chars, isBlank c = false) :
    strip chars = chars := by
  simpa using strip_padded (List.forall_mem_nil _) h (List.forall_mem_nil _)

theorem isBlank_of_isDigit {c : Char} (h : c.isDigit = true) : isBlank c = false := by
  have hcode := toNat_of_isDigit h
  simp only [isBlank, blankRanges, Ranges.holds, List.any_cons, List.any_nil]
  simp only [Bool.or_eq_false_iff, Bool.and_eq_false_iff, decide_eq_false_iff_not, and_true]
  omega

/-- An integer is written with digits and a minus. -/
theorem forall_mem_toString {p : Char → Prop} (hminus : p '-') (hdigit : ∀ c, c.isDigit = true → p c)
    (value : Int) : ∀ c ∈ (toString value).toList, p c := by
  intro c hc
  rw [toList_toString] at hc
  rcases List.mem_append.mp hc with hsign | hmem
  · split at hsign
    · rw [List.mem_singleton.mp hsign]
      exact hminus
    · simp at hsign
  · exact hdigit c (Nat.isDigit_of_mem_toDigits (by decide) (by decide) hmem)

theorem strip_toString (value : Int) :
    strip (toString value).toList = (toString value).toList := by
  have hminus : isBlank '-' = false := rfl
  exact strip_of_not_isBlank (forall_mem_toString hminus (fun _ => isBlank_of_isDigit) value)

end ResourceLiterals.Text
