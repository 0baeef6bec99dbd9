import Mathlib.Data.List.Forall2
import Mathlib.Data.Nat.Digits.Defs
import Mathlib.Tactic.SplitIfs
import ResourceLiterals.Literal.ListReader

/-!
# The grammar of literals

What string literals and list literals are, said without a reader, and that the readers accept all
of it.

* `digitTable`, `simpleEscapes`, `indentChars` and `gapChars` spell out the characters that the
  grammar names.
* `Item` is a character or an escape inside a string literal, `Items` a row of them with the
  continuations between them.
* `StringLiteral` is a row of items between quotes, `Elements` what stands between the brackets of a
  list literal.
* `isIndent_iff`, `isGap_iff`, `digitValue?_eq_some_iff` and `simpleEscape?_eq_some_iff` say that the
  readers test for just these characters, `placeValue_eq_ofDigits` that they count in places.
* `readItems_of_items`, `readElements_of_elements` and the two theorems on whole texts say that the
  readers find the bytes that the grammar gives.
-/

namespace ResourceLiterals.Literal

/-! ## String literals -/

/-- The digits up to base sixteen with their values. -/
def digitTable : List (Char × Nat) :=
  [('0', 0), ('1', 1), ('2', 2), ('3', 3), ('4', 4), ('5', 5), ('6', 6), ('7', 7), ('8', 8), ('9', 9),
    ('a', 10), ('b', 11), ('c', 12), ('d', 13), ('e', 14), ('f', 15),
    ('A', 10), ('B', 11), ('C', 12), ('D', 13), ('E', 14), ('F', 15)]

/-- A digit of a base and its value. -/
def Digit (base : Nat) (c : Char) (value : Nat) : Prop :=
  (c, value) ∈ digitTable ∧ value < base

/-- Digits of a base that give the code of a byte, the most significant one first. -/
inductive Code (count base : Nat) : List Char → UInt8 → Prop where
  | digits {digits : List Char} {values : List Nat} (hlength : digits.length = count)
      (hvalues : List.Forall₂ (Digit base) digits values)
      (hrange : Nat.ofDigits base values.reverse ≤ 0xFF) :
      Code count base digits (UInt8.ofNat (Nat.ofDigits base values.reverse))

/-- The characters that are an escape with nothing but a backslash before them, and the bytes that
they stand for. -/
def simpleEscapes : List (Char × UInt8) :=
  [('\\', 0x5C), ('"', 0x22), ('\'', 0x27), ('n', 0x0A), ('r', 0x0D), ('t', 0x09), ('b', 0x08),
    (' ', 0x20)]

/-- An item of a string literal with the bytes that it stands for. -/
inductive Item : List Char → Bytes → Prop where
  /-- A character that stands for itself. -/
  | char (c : Char) (hquote : c ≠ '"') (hbackslash : c ≠ '\\') : Item [c] (String.utf8EncodeChar c)
  /-- A backslash and one character. -/
  | simple {c : Char} {byte : UInt8} (h : (c, byte) ∈ simpleEscapes) : Item ['\\', c] [byte]
  | hex {digits : List Char} {byte : UInt8} (h : Code 2 16 digits byte) :
      Item ('\\' :: 'x' :: digits) [byte]
  | octal {digits : List Char} {byte : UInt8} (h : Code 3 8 digits byte) :
      Item ('\\' :: 'o' :: digits) [byte]
  | decimal {digits : List Char} {byte : UInt8} (h : Code 3 10 digits byte) :
      Item ('\\' :: digits) [byte]

/-- The blanks of an indentation. -/
def indentChars : List Char :=
  [' ', '\t']

/-- Characters that do not go on with the blanks of an indentation. -/
def Unindented (chars : List Char) : Prop :=
  ∀ c ∈ chars.head?, c ∉ indentChars

/-- Items one after the other.  A continuation takes all the blanks that follow its line break. -/
inductive Items : List Char → Bytes → Prop where
  | nil : Items [] []
  | item {chars more : List Char} {bytes others : Bytes} (hitem : Item chars bytes)
      (hmore : Items more others) : Items (chars ++ more) (bytes ++ others)
  | continuation {lineEnd indent more : List Char} {others : Bytes}
      (hlineEnd : lineEnd = ['\n'] ∨ lineEnd = ['\r', '\n'])
      (hindent : ∀ c ∈ indent, c ∈ indentChars) (hmaximal : Unindented more)
      (hmore : Items more others) : Items ('\\' :: (lineEnd ++ (indent ++ more))) others

/-- A string literal with the bytes that it stands for. -/
inductive StringLiteral : List Char → Bytes → Prop where
  | quoted {chars : List Char} {bytes : Bytes} (h : Items chars bytes) :
      StringLiteral ('"' :: (chars ++ ['"'])) bytes

/-! ## List literals -/

/-- The blanks that may stand around literals. -/
def gapChars : List Char :=
  [' ', '\t', '\r', '\n']

/-- Blanks that may stand around literals. -/
def Gap (chars : List Char) : Prop :=
  ∀ c ∈ chars, c ∈ gapChars

/-- What stands between the brackets of a list literal, less the blanks at its start, with the
values of the elements. -/
inductive Elements : List Char → List Bytes → Prop where
  | nil : Elements [] []
  | last {literal gap : List Char} {bytes : Bytes} (hliteral : StringLiteral literal bytes)
      (hgap : Gap gap) : Elements (literal ++ gap) [bytes]
  | cons {literal gap gap' more : List Char} {bytes : Bytes} {others : List Bytes}
      (hliteral : StringLiteral literal bytes) (hgap : Gap gap) (hgap' : Gap gap')
      (hmore : Elements more others) :
      Elements (literal ++ (gap ++ ';' :: (gap' ++ more))) (bytes :: others)

/-- A list literal with the values of its elements. -/
inductive ListLiteral : List Char → List Bytes → Prop where
  | bracketed {gap chars : List Char} {values : List Bytes} (hgap : Gap gap)
      (h : Elements chars values) : ListLiteral ('[' :: (gap ++ (chars ++ [']']))) values

@[simp] theorem gap_nil : Gap [] := fun _ hc => nomatch hc

/-! ## The characters of the grammar -/

theorem isIndent_iff {c : Char} : isIndent c = true ↔ c ∈ indentChars := by
  simp [isIndent, indentChars]

theorem isGap_iff {c : Char} : isGap c = true ↔ c ∈ gapChars := by
  simp [isGap, gapChars, or_assoc]

/-- Every digit up to base sixteen is an ASCII character. -/
theorem toNat_lt_of_hexValue {c : Char} {value : Nat} (h : Text.hexValue? c = some value) :
    c.toNat < 128 := by
  unfold Text.hexValue? at h
  split_ifs at h with hrange hrange hrange
  · exact Nat.lt_of_le_of_lt hrange.2 (show '9'.toNat < 128 by decide)
  · exact Nat.lt_of_le_of_lt hrange.2 (show 'f'.toNat < 128 by decide)
  · exact Nat.lt_of_le_of_lt hrange.2 (show 'F'.toNat < 128 by decide)

theorem hexValue?_eq_some_iff {c : Char} {value : Nat} :
    Text.hexValue? c = some value ↔ (c, value) ∈ digitTable := by
  -- There are no digits beyond ASCII, so going through the first codes finds them all.
  have ascii : ∀ code < 128, ∀ value ∈ Text.hexValue? (Char.ofNat code),
      (Char.ofNat code, value) ∈ digitTable := by decide
  have table : ∀ entry ∈ digitTable, Text.hexValue? entry.1 = some entry.2 := by decide
  constructor
  · intro h
    have hmem := ascii c.toNat (toNat_lt_of_hexValue h)
    rw [Char.ofNat_toNat] at hmem
    exact hmem value h
  · exact table (c, value)

theorem digitValue?_eq_some_iff {base : Nat} {c : Char} {value : Nat} :
    Text.digitValue? base c = some value ↔ Digit base c value := by
  simp [Text.digitValue?, Option.filter_eq_some_iff, hexValue?_eq_some_iff, Digit]

theorem placeValue_eq_ofDigits (base : Nat) (values : List Nat) :
    Text.placeValue base values = Nat.ofDigits base values.reverse := by
  rw [Nat.ofDigits_eq_foldr, List.foldr_reverse, Text.placeValue]
  simp only [Nat.cast_id, Nat.add_comm]

theorem simpleEscape?_eq_some_iff {c : Char} {byte : UInt8} :
    simpleEscape? c = some byte ↔ (c, byte) ∈ simpleEscapes := by
  unfold simpleEscape?
  split <;> simp_all [simpleEscapes, eq_comm, backslash, quote, lineFeed, carriageReturn, tab, space]

/-- A digit of base ten is a digit of some script, and opens no other escape. -/
theorem Digit.opens_decimal {c : Char} {value : Nat} (h : Digit 10 c value) :
    Text.isDigit c = true ∧ simpleEscape? c = none ∧ c ≠ '\n' ∧ c ≠ '\r' ∧ c ≠ 'x' ∧ c ≠ 'o' := by
  have table : ∀ entry ∈ digitTable, entry.2 < 10 →
      Text.isDigit entry.1 = true ∧ simpleEscape? entry.1 = none ∧ entry.1 ≠ '\n' ∧
        entry.1 ≠ '\r' ∧ entry.1 ≠ 'x' ∧ entry.1 ≠ 'o' := by decide
  exact table (c, value) h.1 h.2

/-! ## Rows of items -/

theorem unindented_cons {c : Char} {chars : List Char} (h : c ∉ indentChars) :
    Unindented (c :: chars) := by
  intro first hfirst
  obtain rfl : c = first := by simpa using hfirst
  exact h

theorem Unindented.append {first second : List Char} (hfirst : Unindented first)
    (hsecond : Unindented second) : Unindented (first ++ second) := by
  cases first with
  | nil => exact hsecond
  | cons c chars => exact unindented_cons (hfirst c rfl)

/-! ## The reader of string literals -/

/-- Skipping stops at the first character that is not to be skipped. -/
theorem Cursor.skipWhile_append {p : Char → Bool} {blanks : List Char}
    (hp : ∀ {c}, p c = true ↔ c ∈ blanks) {skipped rest : List Char} (offset : Nat)
    (hskipped : ∀ c ∈ skipped, c ∈ blanks) (hrest : ∀ c ∈ rest.head?, c ∉ blanks) :
    (Cursor.mk offset (skipped ++ rest)).skipWhile p = ⟨offset + skipped.length, rest⟩ := by
  have hskipped : ∀ c ∈ skipped, p c = true := fun c hc => hp.mpr (hskipped c hc)
  have hrest : ∀ c ∈ rest.head?, p c = false := fun c hc =>
    Bool.eq_false_iff.mpr (mt hp.mp (hrest c hc))
  have htake : rest.takeWhile p = [] := by
    cases rest with
    | nil => rfl
    | cons c chars => simp [hrest c rfl]
  have hdrop : rest.dropWhile p = rest := by
    cases rest with
    | nil => rfl
    | cons c chars => simp [hrest c rfl]
  simp only [Cursor.skipWhile, List.takeWhile_append_of_pos hskipped, htake, List.append_nil,
    List.dropWhile_append_of_pos hskipped, hdrop]

theorem mapM_eq_some_of_forall₂ {f : α → Option β} {items : List α} {values : List β}
    (h : List.Forall₂ (fun item value => f item = some value) items values) :
    items.mapM f = some values := by
  induction h with
  | nil => rfl
  | cons hvalue _ ih => simp [hvalue, ih]

/-- The digits of a code are read as its byte. -/
theorem readCode_of_code {count base : Nat} {digits : List Char} {byte : UInt8}
    (h : Code count base digits byte) (offset : Nat) (rest : List Char) :
    readCode count base ⟨offset, digits ++ rest⟩ = .ok byte := by
  obtain ⟨hlength, hvalues, hrange⟩ := h
  have htake : (digits ++ rest).take count = digits := by rw [← hlength, List.take_left]
  have hread := mapM_eq_some_of_forall₂ (hvalues.imp fun _ _ => digitValue?_eq_some_iff.mpr)
  rw [readCode, htake, hread]
  simp [placeValue_eq_ofDigits, ← hvalues.length_eq, hlength, Nat.not_lt.mpr hrange]

theorem readEscape_simple {c : Char} {byte : UInt8} (h : (c, byte) ∈ simpleEscapes)
    (offset : Nat) (rest : List Char) :
    readEscape ⟨offset, c :: rest⟩ = .ok ([byte], ⟨offset + 1, rest⟩) := by
  simp [readEscape, simpleEscape?_eq_some_iff.mpr h, Cursor.advance]

theorem readEscape_hex {digits : List Char} {byte : UInt8} (h : Code 2 16 digits byte)
    (offset : Nat) (rest : List Char) :
    readEscape ⟨offset, 'x' :: (digits ++ rest)⟩ = .ok ([byte], ⟨offset + 3, rest⟩) := by
  have hcode := readCode_of_code h (offset + 1) rest
  obtain ⟨hlength, -, -⟩ := h
  have hdrop : (digits ++ rest).drop 2 = rest := by rw [← hlength, List.drop_left]
  simp [readEscape, simpleEscape?, Cursor.advance, hcode, hdrop, Except.map]

theorem readEscape_octal {digits : List Char} {byte : UInt8} (h : Code 3 8 digits byte)
    (offset : Nat) (rest : List Char) :
    readEscape ⟨offset, 'o' :: (digits ++ rest)⟩ = .ok ([byte], ⟨offset + 4, rest⟩) := by
  have hcode := readCode_of_code h (offset + 1) rest
  obtain ⟨hlength, -, -⟩ := h
  have hdrop : (digits ++ rest).drop 3 = rest := by rw [← hlength, List.drop_left]
  simp [readEscape, simpleEscape?, Cursor.advance, hcode, hdrop, Except.map]

theorem readEscape_decimal {digits : List Char} {byte : UInt8} (h : Code 3 10 digits byte)
    (offset : Nat) (rest : List Char) :
    readEscape ⟨offset, digits ++ rest⟩ = .ok ([byte], ⟨offset + 3, rest⟩) := by
  have hcode := readCode_of_code h offset rest
  obtain ⟨hlength, hvalues, -⟩ := h
  have hdrop : (digits ++ rest).drop 3 = rest := by rw [← hlength, List.drop_left]
  cases hvalues with
  | nil => simp at hlength
  | @cons c value others values hc _ =>
    obtain ⟨hdigit, hsimple, hlf, hcr, hx, ho⟩ := hc.opens_decimal
    rw [List.cons_append] at hcode hdrop ⊢
    simp only [readEscape, hsimple, hdigit, hlf, hcr, hx, ho, hcode, Cursor.advance, hdrop,
      Except.map, false_and, if_false, if_true]

/-- What follows the backslash of a continuation is skipped up to the end of the indentation. -/
theorem readEscape_continuation {lineEnd indent more : List Char}
    (hlineEnd : lineEnd = ['\n'] ∨ lineEnd = ['\r', '\n'])
    (hindent : ∀ c ∈ indent, c ∈ indentChars) (hmaximal : Unindented more) (offset : Nat) :
    readEscape ⟨offset, lineEnd ++ (indent ++ more)⟩ =
      .ok ([], ⟨offset + lineEnd.length + indent.length, more⟩) := by
  have hskip (place : Nat) := Cursor.skipWhile_append isIndent_iff place hindent hmaximal
  rcases hlineEnd with rfl | rfl
  · simp [readEscape, simpleEscape?, Cursor.advance, hskip]
  · simp [readEscape, simpleEscape?, Cursor.advance, hskip]

theorem readItems_quote (start offset : Nat) (rest : List Char) :
    readItems start ⟨offset, '"' :: rest⟩ = .ok ([], ⟨offset + 1, rest⟩) := by
  rw [readItems.eq_def]
  rfl

theorem readItems_char {c : Char} (hquote : c ≠ '"') (hbackslash : c ≠ '\\') (start offset : Nat)
    (rest : List Char) :
    readItems start ⟨offset, c :: rest⟩ =
      (readItems start ⟨offset + 1, rest⟩).map fun (more, last) =>
        (String.utf8EncodeChar c ++ more, last) := by
  rw [readItems.eq_def]
  simp only [hquote, hbackslash, if_false, Cursor.advance, List.drop_succ_cons, List.drop_zero]
  cases readItems start ⟨offset + 1, rest⟩ <;> rfl

theorem readItems_escape (start offset : Nat) (rest : List Char) :
    readItems start ⟨offset, '\\' :: rest⟩ =
      readEscape ⟨offset + 1, rest⟩ >>= fun (bytes, next) =>
        (readItems start next).map fun (more, last) => (bytes ++ more, last) := by
  have hrest : (Cursor.mk offset ('\\' :: rest)).advance 1 = ⟨offset + 1, rest⟩ := rfl
  rw [readItems.eq_def]
  simp only [Char.reduceEq, if_false, if_true]
  split
  · rename_i error herror
    rw [← hrest, herror]
    rfl
  · rename_i bytes next hok
    rw [← hrest, hok]
    show _ = (readItems start next).map _
    cases readItems start next <;> rfl

/-- What follows the backslash of an item is read as its byte. -/
theorem readEscape_of_item {chars : List Char} {bytes : Bytes} (hitem : Item ('\\' :: chars) bytes)
    (offset : Nat) (rest : List Char) :
    readEscape ⟨offset, chars ++ rest⟩ = .ok (bytes, ⟨offset + chars.length, rest⟩) := by
  cases hitem with
  | char _ _ hbackslash => exact absurd rfl hbackslash
  | simple hsimple => exact readEscape_simple hsimple offset rest
  | hex hcode =>
    have hread := readEscape_hex hcode offset rest
    obtain ⟨hlength, -, -⟩ := hcode
    simpa [hlength] using hread
  | octal hcode =>
    have hread := readEscape_octal hcode offset rest
    obtain ⟨hlength, -, -⟩ := hcode
    simpa [hlength] using hread
  | decimal hcode =>
    have hread := readEscape_decimal hcode offset rest
    obtain ⟨hlength, -, -⟩ := hcode
    simpa [hlength] using hread

/-- An item is one character, or starts with a backslash. -/
theorem Item.cases_head {chars : List Char} {bytes : Bytes} (hitem : Item chars bytes) :
    (∃ c, chars = [c] ∧ bytes = String.utf8EncodeChar c ∧ c ≠ '"' ∧ c ≠ '\\') ∨
      ∃ escape, chars = '\\' :: escape := by
  cases hitem with
  | char c hquote hbackslash => exact .inl ⟨c, rfl, rfl, hquote, hbackslash⟩
  | simple => exact .inr ⟨_, rfl⟩
  | hex => exact .inr ⟨_, rfl⟩
  | octal => exact .inr ⟨_, rfl⟩
  | decimal => exact .inr ⟨_, rfl⟩

/-- An item is read as its bytes, and then the reader goes on. -/
theorem readItems_item {chars : List Char} {bytes : Bytes} (hitem : Item chars bytes)
    {start offset : Nat} {rest : List Char} {more : Bytes} {last : Cursor}
    (h : readItems start ⟨offset + chars.length, rest⟩ = .ok (more, last)) :
    readItems start ⟨offset, chars ++ rest⟩ = .ok (bytes ++ more, last) := by
  obtain ⟨c, rfl, rfl, hquote, hbackslash⟩ | ⟨escape, rfl⟩ := hitem.cases_head
  · rw [List.singleton_append, readItems_char hquote hbackslash]
    exact congrArg (Except.map _) h
  · have hescape := readEscape_of_item hitem (offset + 1) rest
    rw [List.length_cons, Nat.add_comm escape.length, ← Nat.add_assoc] at h
    rw [List.cons_append, readItems_escape, hescape]
    exact congrArg (Except.map _) h

/-- A row of items with a quote after it is read as its bytes. -/
theorem readItems_of_items {chars : List Char} {bytes : Bytes} (h : Items chars bytes)
    (start offset : Nat) (tail : List Char) :
    readItems start ⟨offset, chars ++ '"' :: tail⟩ =
      .ok (bytes, ⟨offset + chars.length + 1, tail⟩) := by
  induction h generalizing offset with
  | nil => exact readItems_quote start offset tail
  | @item chars more bytes others hitem hmore ih =>
    have hrest := ih (offset + chars.length)
    rw [List.append_assoc, List.length_append, ← Nat.add_assoc]
    exact readItems_item hitem hrest
  | @continuation lineEnd indent more others hlineEnd hindent hmaximal hmore ih =>
    have hunindented : Unindented (more ++ '"' :: tail) := hmaximal.append (unindented_cons (by decide))
    have hescape := readEscape_continuation hlineEnd hindent hunindented (offset + 1)
    have hrest := ih (offset + 1 + lineEnd.length + indent.length)
    have hchars : '\\' :: (lineEnd ++ (indent ++ more)) ++ '"' :: tail =
        '\\' :: (lineEnd ++ (indent ++ (more ++ '"' :: tail))) := by simp
    have hlast : offset + ('\\' :: (lineEnd ++ (indent ++ more))).length + 1 =
        offset + 1 + lineEnd.length + indent.length + more.length + 1 := by
      simp only [List.length_cons, List.length_append]
      omega
    rw [hchars, hlast, readItems_escape, hescape]
    exact congrArg (Except.map _) hrest

/-- A string literal is read as its bytes. -/
theorem readString_of_stringLiteral {chars : List Char} {bytes : Bytes}
    (h : StringLiteral chars bytes) (offset : Nat) (tail : List Char) :
    readString ⟨offset, chars ++ tail⟩ = .ok (bytes, ⟨offset + chars.length, tail⟩) := by
  obtain ⟨hitems⟩ := h
  rename_i items
  have hread := readItems_of_items hitems offset (offset + 1) tail
  have hlength : offset + ('"' :: (items ++ ['"'])).length = offset + 1 + items.length + 1 := by
    simp only [List.length_cons, List.length_append, List.length_nil]
    omega
  rw [hlength, readString]
  simpa [Cursor.advance] using hread

/-! ## The reader of list literals -/

theorem Cursor.skipGap_append {gap : List Char} (hgap : Gap gap) (offset : Nat) (rest : List Char)
    (hrest : ∀ c ∈ rest.head?, c ∉ gapChars) :
    (Cursor.mk offset (gap ++ rest)).skipGap = ⟨offset + gap.length, rest⟩ :=
  Cursor.skipWhile_append isGap_iff offset hgap hrest

/-- A string literal starts with its quote. -/
theorem StringLiteral.head?_append {chars : List Char} {bytes : Bytes}
    (h : StringLiteral chars bytes) (rest : List Char) : (chars ++ rest).head? = some '"' := by
  obtain ⟨-⟩ := h
  rfl

/-- Elements start with a quote, unless there is none. -/
theorem Elements.head_not_gap {chars : List Char} {values : List Bytes} (h : Elements chars values)
    (tail : List Char) : ∀ c ∈ (chars ++ ']' :: tail).head?, c ∉ gapChars := by
  have hquote : '"' ∉ gapChars := by decide
  cases h with
  | nil =>
    intro c hc
    obtain rfl : ']' = c := by simpa using hc
    decide
  | last hliteral hgap =>
    rw [List.append_assoc, hliteral.head?_append]
    simpa using hquote
  | cons hliteral hgap hgap' hmore =>
    rw [List.append_assoc, hliteral.head?_append]
    simpa using hquote

theorem readElements_bracket (offset : Nat) (tail : List Char) :
    readElements ⟨offset, ']' :: tail⟩ = .ok ([], ⟨offset + 1, tail⟩) := by
  rw [readElements.eq_def]
  rfl

/-- After an element the reader goes by the first character that is not blank. -/
theorem readElements_of_readString {cursor after : Cursor} {element : Bytes}
    (hbracket : cursor.rest.head? ≠ some ']') (hread : readString cursor = .ok (element, after)) :
    readElements cursor =
      match after.skipGap.rest with
      | ';' :: _ => (readElements (after.skipGap.advance 1).skipGap).map
          fun (elements, last) => (element :: elements, last)
      | ']' :: _ => .ok ([element], after.skipGap.advance 1)
      | _ => .error ⟨.noSeparator, after.skipGap.offset⟩ := by
  rw [readElements.eq_def, if_neg hbracket]
  split
  · rename_i error herror
    rw [hread] at herror
    simp at herror
  · rename_i element' after' hok
    rw [hread] at hok
    obtain ⟨rfl, rfl⟩ := Prod.mk.inj (Except.ok.inj hok)
    dsimp only
    split
    · rename_i hplace
      rw [hplace]
      cases readElements (after.skipGap.advance 1).skipGap <;> rfl
    · rename_i hplace
      rw [hplace]
      rfl
    · rename_i hseparator hend
      split
      · rename_i heq
        exact absurd heq (hseparator _)
      · rename_i heq
        exact absurd heq (hend _)
      · rfl

/-- The elements of a list literal with the bracket after them are read as their values. -/
theorem readElements_of_elements {chars : List Char} {values : List Bytes}
    (h : Elements chars values) (offset : Nat) (tail : List Char) :
    readElements ⟨offset, chars ++ ']' :: tail⟩ =
      .ok (values, ⟨offset + chars.length + 1, tail⟩) := by
  induction h generalizing offset with
  | nil => exact readElements_bracket offset tail
  | @last literal gap bytes hliteral hgap =>
    have hread := readString_of_stringLiteral hliteral offset (gap ++ ']' :: tail)
    have hplace := Cursor.skipGap_append hgap (offset + literal.length) (']' :: tail)
      (by simp [gapChars])
    rw [List.append_assoc, readElements_of_readString (by simp [hliteral.head?_append]) hread,
      hplace, List.length_append, ← Nat.add_assoc]
    rfl
  | @cons literal gap gap' more bytes others hliteral hgap hgap' hmore ih =>
    have hread := readString_of_stringLiteral hliteral offset
      (gap ++ ';' :: (gap' ++ (more ++ ']' :: tail)))
    have hplace := Cursor.skipGap_append hgap (offset + literal.length)
      (';' :: (gap' ++ (more ++ ']' :: tail))) (by simp [gapChars])
    have hnext := Cursor.skipGap_append hgap' (offset + literal.length + gap.length + 1)
      (more ++ ']' :: tail) (hmore.head_not_gap tail)
    have hrest := ih (offset + literal.length + gap.length + 1 + gap'.length)
    have happend : literal ++ (gap ++ ';' :: (gap' ++ more)) ++ ']' :: tail =
        literal ++ (gap ++ ';' :: (gap' ++ (more ++ ']' :: tail))) := by simp
    have hlength : offset + (literal ++ (gap ++ ';' :: (gap' ++ more))).length + 1 =
        offset + literal.length + gap.length + 1 + gap'.length + more.length + 1 := by
      simp only [List.length_append, List.length_cons]
      omega
    rw [happend, hlength, readElements_of_readString (by simp [hliteral.head?_append]) hread,
      hplace]
    simp only [Cursor.advance, List.drop_succ_cons, List.drop_zero]
    rw [hnext, hrest]
    rfl

/-! ## Whole texts -/

theorem Cursor.expectEnd_of_gap {gap : List Char} (hgap : Gap gap) (offset : Nat) :
    (Cursor.mk offset gap).expectEnd = .ok () := by
  have hskip := Cursor.skipGap_append hgap offset [] (by simp)
  rw [List.append_nil] at hskip
  rw [Cursor.expectEnd, hskip]
  rfl

/-- A text that is a string literal with blanks around it is read as its bytes. -/
theorem parseString_of_stringLiteral {text : String} {before chars after : List Char}
    {bytes : Bytes} (htext : text.toList = before ++ (chars ++ after)) (hbefore : Gap before)
    (hafter : Gap after) (h : StringLiteral chars bytes) : parseString text = .ok bytes := by
  have hquote : ∀ c ∈ (chars ++ after).head?, c ∉ gapChars := by
    rw [h.head?_append]
    simp [gapChars]
  have hstart : (Cursor.start text).skipGap = ⟨before.length, chars ++ after⟩ := by
    rw [Cursor.start, htext]
    simpa using Cursor.skipGap_append hbefore 0 (chars ++ after) hquote
  have hread := readString_of_stringLiteral h before.length after
  have hend := Cursor.expectEnd_of_gap hafter (before.length + chars.length)
  simp [parseString, hstart, hread, hend, bind, Except.bind, pure, Except.pure]

/-- A text that is a list literal with blanks around it is read as the values of its elements. -/
theorem parseList_of_listLiteral {text : String} {before chars after : List Char}
    {values : List Bytes} (htext : text.toList = before ++ (chars ++ after)) (hbefore : Gap before)
    (hafter : Gap after) (h : ListLiteral chars values) : parseList text = .ok values := by
  obtain ⟨hgap, helements⟩ := h
  rename_i gap elements
  have hstart : (Cursor.start text).skipGap =
      ⟨before.length, '[' :: (gap ++ (elements ++ ']' :: after))⟩ := by
    have hskip := Cursor.skipGap_append hbefore 0 ('[' :: (gap ++ (elements ++ ']' :: after)))
      (by simp [gapChars])
    rw [Cursor.start, htext]
    simpa using hskip
  have hnext := Cursor.skipGap_append hgap (before.length + 1) (elements ++ ']' :: after)
    (helements.head_not_gap after)
  have hread := readElements_of_elements helements (before.length + 1 + gap.length) after
  have hend := Cursor.expectEnd_of_gap hafter
    (before.length + 1 + gap.length + elements.length + 1)
  simp [parseList, hstart, Cursor.advance, hnext, hread, hend, bind, Except.bind, pure, Except.pure]

end ResourceLiterals.Literal
