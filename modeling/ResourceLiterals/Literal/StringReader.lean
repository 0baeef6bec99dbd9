import ResourceLiterals.Literal.Cursor
import ResourceLiterals.Literal.Escape
import ResourceLiterals.Proofs.Results
import ResourceLiterals.Text.Digit
import ResourceLiterals.Text.Positional

/-!
# Reading string literals

A string literal is a double quote, items, and a double quote.  An item is a character that stands
for its UTF-8 bytes, an escape that stands for one byte, or a continuation that stands for nothing:
a backslash, a line break, and the blanks that start the next line.

* `readEscape` reads what follows a backslash.
* `readItems` reads up to the closing quote.
* `parseString` reads a text that is one string literal.
-/

namespace ResourceLiterals.Literal

/-- The byte of an escape that consists of a backslash and one character. -/
def simpleEscape? : Char → Option UInt8
  | '\\' => some backslash
  | '"' => some quote
  | '\'' => some 0x27
  | 'n' => some lineFeed
  | 'r' => some carriageReturn
  | 't' => some tab
  | 'b' => some 0x08
  | ' ' => some space
  | _ => none

/-- Reads exactly `count` digits that give a byte. -/
def readCode (count base : Nat) (cursor : Cursor) : Except ReadError UInt8 :=
  match (cursor.rest.take count).mapM (Text.digitValue? base) with
  | none => .error ⟨.noDigits count base, cursor.offset⟩
  | some digits =>
    if digits.length ≠ count then .error ⟨.noDigits count base, cursor.offset⟩
    else if Text.placeValue base digits > 0xFF then
      .error ⟨.codeOutOfRange (Text.placeValue base digits), cursor.offset⟩
    else .ok (UInt8.ofNat (Text.placeValue base digits))

/-- The blanks that are skipped at the start of a continuation line. -/
def isIndent (c : Char) : Bool :=
  c == ' ' || c == '\t'

/-- Reads what follows a backslash: the bytes that it stands for, and the place after it. -/
def readEscape (cursor : Cursor) : Except ReadError (Bytes × Cursor) :=
  match cursor.rest with
  | [] => .error ⟨.unterminatedEscape, cursor.offset - 1⟩
  | c :: rest =>
    match simpleEscape? c with
    | some byte => .ok ([byte], cursor.advance 1)
    | none =>
      if c = '\n' then
        .ok ([], (cursor.advance 1).skipWhile isIndent)
      else if c = '\r' ∧ rest.head? = some '\n' then
        .ok ([], (cursor.advance 2).skipWhile isIndent)
      else if c = 'x' then
        (readCode 2 16 (cursor.advance 1)).map fun byte => ([byte], cursor.advance 3)
      else if c = 'o' then
        (readCode 3 8 (cursor.advance 1)).map fun byte => ([byte], cursor.advance 4)
      else if Text.isDigit c then
        (readCode 3 10 cursor).map fun byte => ([byte], cursor.advance 3)
      else
        .error ⟨.invalidEscape c, cursor.offset - 1⟩

/-- An escape takes at least one character. -/
theorem length_lt_of_readEscape {cursor next : Cursor} {bytes : Bytes}
    (h : readEscape cursor = .ok (bytes, next)) :
    next.rest.length < cursor.rest.length := by
  unfold readEscape at h
  split at h
  · simp at h
  · rename_i c rest hrest
    have advanced (count : Nat) (hcount : 0 < count) :
        (cursor.advance count).rest.length < cursor.rest.length := by
      simp [hrest]; omega
    have skipped (count : Nat) (hcount : 0 < count) :
        ((cursor.advance count).skipWhile isIndent).rest.length < cursor.rest.length :=
      Nat.lt_of_le_of_lt (Cursor.length_skipWhile_le _ _) (advanced count hcount)
    split at h
    · obtain ⟨-, rfl⟩ := Prod.mk.inj (Except.ok.inj h)
      exact advanced 1 (by decide)
    · split at h
      · obtain ⟨-, rfl⟩ := Prod.mk.inj (Except.ok.inj h)
        exact skipped 1 (by decide)
      · split at h
        · obtain ⟨-, rfl⟩ := Prod.mk.inj (Except.ok.inj h)
          exact skipped 2 (by decide)
        · split at h
          · obtain ⟨_, -, heq⟩ := exists_of_map_eq_ok h
            obtain ⟨-, rfl⟩ := Prod.mk.inj heq
            exact advanced 3 (by decide)
          · split at h
            · obtain ⟨_, -, heq⟩ := exists_of_map_eq_ok h
              obtain ⟨-, rfl⟩ := Prod.mk.inj heq
              exact advanced 4 (by decide)
            · split at h
              · obtain ⟨_, -, heq⟩ := exists_of_map_eq_ok h
                obtain ⟨-, rfl⟩ := Prod.mk.inj heq
                exact advanced 3 (by decide)
              · simp at h

/-- Reads the items of the string literal that starts at `start`, and its closing quote. -/
def readItems (start : Nat) (cursor : Cursor) : Except ReadError (Bytes × Cursor) :=
  match _hrest : cursor.rest with
  | [] => .error ⟨.unterminatedString, start⟩
  | c :: _ =>
    if c = '"' then
      .ok ([], cursor.advance 1)
    else if c = '\\' then
      match _hescape : readEscape (cursor.advance 1) with
      | .error error => .error error
      | .ok (bytes, next) =>
        match readItems start next with
        | .error error => .error error
        | .ok (more, last) => .ok (bytes ++ more, last)
    else
      match readItems start (cursor.advance 1) with
      | .error error => .error error
      | .ok (more, last) => .ok (String.utf8EncodeChar c ++ more, last)
termination_by cursor.rest.length
decreasing_by
  · have := length_lt_of_readEscape _hescape
    simp [_hrest] at this ⊢
    omega
  · simp [_hrest]

/-- Reads a string literal and gives its bytes and the place after it. -/
def readString (cursor : Cursor) : Except ReadError (Bytes × Cursor) :=
  if cursor.rest.head? = some '"' then
    readItems cursor.offset (cursor.advance 1)
  else
    .error ⟨.noQuote, cursor.offset⟩

/-- Reading items does not lengthen what is left. -/
theorem length_le_of_readItems {start : Nat} {cursor next : Cursor} {bytes : Bytes}
    (h : readItems start cursor = .ok (bytes, next)) :
    next.rest.length ≤ cursor.rest.length := by
  fun_induction readItems start cursor generalizing bytes next with
  | case1 => simp at h
  | case2 =>
    obtain ⟨-, rfl⟩ := Prod.mk.inj (Except.ok.inj h)
    simp
  | case3 => simp at h
  | case4 => simp at h
  | case5 cursor _ _ following hescape more last hmore _ _ ih =>
    obtain ⟨-, rfl⟩ := Prod.mk.inj (Except.ok.inj h)
    have := ih hmore
    have := length_lt_of_readEscape hescape
    simp at this
    omega
  | case6 => simp at h
  | case7 cursor c _ _ _ _ more last hmore ih =>
    obtain ⟨-, rfl⟩ := Prod.mk.inj (Except.ok.inj h)
    have := ih hmore
    simp at this
    omega

/-- A string literal takes at least one character. -/
theorem length_lt_of_readString {cursor next : Cursor} {bytes : Bytes}
    (h : readString cursor = .ok (bytes, next)) :
    next.rest.length < cursor.rest.length := by
  unfold readString at h
  split at h
  · rename_i hquote
    have := length_le_of_readItems h
    cases hrest : cursor.rest with
    | nil => simp [hrest] at hquote
    | cons c rest => simp [hrest] at this ⊢; omega
  · simp at h

/-- Reads a text that is one string literal, with blanks around it. -/
def parseString (text : String) : Except ReadError Bytes := do
  let (bytes, after) ← readString (Cursor.start text).skipGap
  after.expectEnd
  return bytes

end ResourceLiterals.Literal
