import Mathlib.Tactic.SplitIfs
import ResourceLiterals.Literal.StringLayout
import ResourceLiterals.Proofs.Literal.Grammar

/-!
# The token of a byte

Inside a text literal that stands on one line every byte is written as its token: the byte itself if
it can be printed, else an escape.

* `token` is that form, for line ends and blanks too.
* `token_cases` lists the shapes that it takes.
* `item_token` says that it is an item with just that byte, and so does `item_hexEscape` of a hex
  escape.
* `length_token_le` and `lineFeed_not_mem_token` say how much of a line it takes.
-/

namespace ResourceLiterals.Literal

/-- The form of a byte on one line. -/
def token (byte : UInt8) : List Char :=
  if byte = lineFeed then ['\\', 'n']
  else if byte = carriageReturn then ['\\', 'r']
  else (charEscape byte).toList

@[simp] theorem token_lineFeed : token lineFeed = ['\\', 'n'] := rfl

@[simp] theorem token_carriageReturn : token carriageReturn = ['\\', 'r'] := rfl

@[simp] theorem token_space : token space = [' '] := rfl

/-! ## Hex escapes -/

theorem digit_hexDigit {value : Nat} (h : value < 16) : Digit 16 (hexDigit value) value := by
  have all : ∀ value < 16, (hexDigit value, value) ∈ digitTable := by decide
  exact ⟨all value h, h⟩

theorem item_hexEscape (byte : UInt8) : Item (hexEscape byte).toList [byte] := by
  have hlt := byte.toNat_lt
  have hhigh := digit_hexDigit (show byte.toNat / 16 < 16 by omega)
  have hlow := digit_hexDigit (show byte.toNat % 16 < 16 by omega)
  have hplace : Nat.ofDigits 16 [byte.toNat / 16, byte.toNat % 16].reverse = byte.toNat := by
    show byte.toNat % 16 + 16 * (byte.toNat / 16 + 16 * 0) = byte.toNat
    omega
  have hcode : Code 2 16 [hexDigit (byte.toNat / 16), hexDigit (byte.toNat % 16)] _ :=
    .digits rfl (.cons hhigh (.cons hlow .nil)) (by rw [hplace]; omega)
  rw [hplace, UInt8.ofNat_toNat] at hcode
  rw [hexEscape, String.toList_ofList]
  exact .hex hcode

theorem toList_hexBlock (data : Bytes) :
    (hexBlock data).toList = data.flatMap fun byte => (hexEscape byte).toList := by
  induction data with
  | nil => rfl
  | cons byte data ih =>
    rw [hexBlock, List.map_cons, String.join_cons, String.toList_append, List.flatMap_cons, ← ih,
      hexBlock]

/-! ## Tokens -/

theorem toNat_ofNat_byte (byte : UInt8) : (Char.ofNat byte.toNat).toNat = byte.toNat := by
  have hlt := byte.toNat_lt
  have hvalid : byte.toNat.isValidChar := .inl (by omega)
  rw [Char.ofNat, dif_pos hvalid]
  rfl

/-- A byte that stands for itself in a literal. -/
structure ShownAsItself (byte : UInt8) : Prop where
  printable : needsHexEscape byte = false
  unescaped : byte ∉ [lineFeed, carriageReturn, tab, quote, backslash]

namespace ShownAsItself

variable {byte : UInt8}

theorem ne_quote (h : ShownAsItself byte) : byte ≠ quote := by
  rintro rfl
  exact h.unescaped (by decide)

theorem ne_backslash (h : ShownAsItself byte) : byte ≠ backslash := by
  rintro rfl
  exact h.unescaped (by decide)

/-- A byte that stands for itself is a printable character. -/
theorem toNat_range (h : ShownAsItself byte) : 0x20 ≤ byte.toNat ∧ byte.toNat ≤ 0x7E := by
  have hunescaped := h.unescaped
  have hprintable := h.printable
  simp only [List.mem_cons, List.not_mem_nil, or_false, not_or, ← UInt8.toNat_inj] at hunescaped
  obtain ⟨hlf, hcr, htab, -, -⟩ := hunescaped
  simp only [needsHexEscape, Bool.or_eq_false_iff, Bool.and_eq_false_iff, decide_eq_false_iff_not,
    beq_eq_false_iff_ne, bne_eq_false_iff_eq, ge_iff_le, UInt8.le_iff_toNat_le,
    UInt8.lt_iff_toNat_lt, ne_eq, ← UInt8.toNat_inj] at hprintable
  have hcodes : lineFeed.toNat = 0x0A ∧ carriageReturn.toNat = 0x0D ∧ tab.toNat = 0x09 ∧
      space.toNat = 0x20 ∧ delete.toNat = 0x7F ∧ (0x80 : UInt8).toNat = 0x80 := by decide
  omega

end ShownAsItself

/-- A token is an escape of two characters, a hex escape, or the character of the byte. -/
theorem token_cases (byte : UInt8) :
    (∃ c, token byte = ['\\', c] ∧ (c, byte) ∈ simpleEscapes) ∨
      token byte = (hexEscape byte).toList ∨
      token byte = [Char.ofNat byte.toNat] ∧ ShownAsItself byte := by
  unfold token charEscape
  split_ifs with hlf hcr htab hquote hbackslash hescape
  · rw [hlf]
    exact .inl ⟨'n', rfl, by decide⟩
  · rw [hcr]
    exact .inl ⟨'r', rfl, by decide⟩
  · rw [htab]
    exact .inl ⟨'t', rfl, by decide⟩
  · rw [hquote]
    exact .inl ⟨'"', rfl, by decide⟩
  · rw [hbackslash]
    exact .inl ⟨'\\', rfl, by decide⟩
  · exact .inr (.inl rfl)
  · rw [String.toList_singleton]
    exact .inr (.inr ⟨rfl, by simpa using hescape, by simp [hlf, hcr, htab, hquote, hbackslash]⟩)

/-- The character of a byte is that of no other byte. -/
theorem ofNat_toNat_ne {byte other : UInt8} (h : byte ≠ other) {c : Char}
    (hc : c.toNat = other.toNat) : Char.ofNat byte.toNat ≠ c := by
  intro heq
  have hcode := toNat_ofNat_byte byte
  rw [heq, hc] at hcode
  exact h (UInt8.toNat_inj.mp hcode.symm)

/-- A byte that stands for itself is its own encoding. -/
theorem item_char_of_byte {byte : UInt8} (h : ShownAsItself byte) :
    Item [Char.ofNat byte.toNat] [byte] := by
  have hcode : (Char.ofNat byte.toNat).toNat = byte.toNat := toNat_ofNat_byte byte
  have hle := h.toNat_range.2
  have hencode : String.utf8EncodeChar (Char.ofNat byte.toNat) = [byte] := by
    have hval : (Char.ofNat byte.toNat).val.toNat = byte.toNat := hcode
    rw [String.utf8EncodeChar, hval]
    simp only [if_pos (show byte.toNat ≤ 0x7f by omega), UInt8.ofNat_toNat]
  rw [← hencode]
  exact .char _ (ofNat_toNat_ne h.ne_quote rfl) (ofNat_toNat_ne h.ne_backslash rfl)

theorem item_token (byte : UInt8) : Item (token byte) [byte] := by
  rcases token_cases byte with ⟨c, htoken, hsimple⟩ | htoken | ⟨htoken, hshown⟩
  · rw [htoken]
    exact .simple hsimple
  · rw [htoken]
    exact item_hexEscape byte
  · rw [htoken]
    exact item_char_of_byte hshown

/-- Only the token of a blank could be taken for indentation. -/
theorem unindented_token {byte : UInt8} (h : byte ≠ space) (rest : List Char) :
    Unindented (token byte ++ rest) := by
  have hbackslash : '\\' ∉ indentChars := by decide
  rcases token_cases byte with ⟨c, htoken, -⟩ | htoken | ⟨htoken, hshown⟩
  · rw [htoken]
    exact unindented_cons hbackslash
  · rw [htoken, hexEscape, String.toList_ofList]
    exact unindented_cons hbackslash
  · rw [htoken]
    refine unindented_cons ?_
    have htab : byte ≠ tab := by
      rintro rfl
      exact hshown.unescaped (by decide)
    simp only [indentChars, List.mem_cons, List.not_mem_nil, or_false, not_or]
    exact ⟨ofNat_toNat_ne h rfl, ofNat_toNat_ne htab rfl⟩

/-! ## Lengths and line feeds -/

theorem lineFeed_not_mem_hexEscape (byte : UInt8) : '\n' ∉ (hexEscape byte).toList := by
  have all : ∀ value < 16, hexDigit value ≠ '\n' := by decide
  have hlt := byte.toNat_lt
  have hhigh := all (byte.toNat / 16) (by omega)
  have hlow := all (byte.toNat % 16) (by omega)
  simp [hexEscape, hhigh.symm, hlow.symm]

@[simp] theorem length_hexEscape (byte : UInt8) :
    (hexEscape byte).toList.length = hexEscapeWidth := by
  rw [hexEscape, String.toList_ofList]
  rfl

theorem lineFeed_not_mem_hexBlock (data : Bytes) : '\n' ∉ (hexBlock data).toList := by
  rw [toList_hexBlock, List.mem_flatMap]
  rintro ⟨byte, -, hmem⟩
  exact lineFeed_not_mem_hexEscape byte hmem

theorem length_hexBlock (data : Bytes) :
    (hexBlock data).length = hexEscapeWidth * data.length := by
  rw [← String.length_toList, toList_hexBlock, List.length_flatMap]
  simp only [length_hexEscape, List.map_const', List.sum_replicate_nat]
  exact Nat.mul_comm _ _

/-- The line feeds of a content are escaped, so a token stays on its line. -/
theorem lineFeed_not_mem_token (byte : UInt8) : '\n' ∉ token byte := by
  rcases token_cases byte with ⟨c, htoken, hsimple⟩ | htoken | ⟨htoken, hshown⟩
  · have all : ∀ escape ∈ simpleEscapes, '\n' ∉ ['\\', escape.1] := by decide
    rw [htoken]
    exact all _ hsimple
  · rw [htoken]
    exact lineFeed_not_mem_hexEscape byte
  · have hfeed : byte ≠ lineFeed := by
      rintro rfl
      exact hshown.unescaped (by decide)
    rw [htoken, List.mem_singleton]
    exact (ofNat_toNat_ne hfeed rfl).symm

/-- No token is longer than a hex escape. -/
theorem length_token_le (byte : UInt8) : (token byte).length ≤ hexEscapeWidth := by
  rcases token_cases byte with ⟨c, htoken, -⟩ | htoken | ⟨htoken, -⟩
  · rw [htoken]
    show 2 ≤ 4
    decide
  · rw [htoken]
    exact Nat.le_of_eq (length_hexEscape byte)
  · rw [htoken]
    show 1 ≤ 4
    decide

end ResourceLiterals.Literal
