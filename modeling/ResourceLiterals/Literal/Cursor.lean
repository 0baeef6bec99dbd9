/-!
# Places in a text

A reader of literals holds what is left of the text together with the offset at which that starts,
counted in characters.  What can go wrong is a `Fault`, and a `ReadError` says where it did.
-/

namespace ResourceLiterals.Literal

/-- What keeps a text from being a literal. -/
inductive Fault where
  /-- No string literal starts here. -/
  | noQuote
  /-- The string literal that starts here has no end. -/
  | unterminatedString
  /-- The text ends with the backslash here. -/
  | unterminatedEscape
  /-- An escape goes on without the digits that it needs. -/
  | noDigits (count base : Nat)
  /-- An escape stands for more than a byte. -/
  | codeOutOfRange (code : Nat)
  | invalidEscape (c : Char)
  /-- The literal is over, the text is not. -/
  | trailingCharacters
  /-- No list literal starts here. -/
  | noBracket
  /-- An element is neither followed by another one nor the last. -/
  | noSeparator
  | noInteger
deriving DecidableEq, Repr

def Fault.message : Fault → String
  | .noQuote => "expected '\"'"
  | .unterminatedString => "unterminated string literal"
  | .unterminatedEscape => "unterminated escape"
  | .noDigits count base => s!"expected {count} base-{base} digit(s) in escape"
  | .codeOutOfRange code => s!"character code {code} out of range in escape"
  | .invalidEscape c => "invalid escape '\\" ++ c.toString ++ "'"
  | .trailingCharacters => "unexpected trailing characters"
  | .noBracket => "expected '['"
  | .noSeparator => "expected ';' or ']'"
  | .noInteger => "expected a decimal integer"

/-- A message with the place that it is about. -/
def located (what : String) (offset : Int) : String :=
  s!"{what} at offset {offset}"

/-- A fault and the offset at which it shows. -/
structure ReadError where
  fault : Fault
  offset : Nat
deriving DecidableEq, Repr

def ReadError.message (error : ReadError) : String :=
  located error.fault.message error.offset

structure Cursor where
  /-- How many characters come before. -/
  offset : Nat
  /-- The characters from here on. -/
  rest : List Char
deriving DecidableEq, Repr

namespace Cursor

def start (text : String) : Cursor := ⟨0, text.toList⟩

/-- The place `count` characters further on. -/
def advance (cursor : Cursor) (count : Nat) : Cursor :=
  ⟨cursor.offset + count, cursor.rest.drop count⟩

/-- The first place from here on whose character does not satisfy `p`. -/
def skipWhile (cursor : Cursor) (p : Char → Bool) : Cursor :=
  ⟨cursor.offset + (cursor.rest.takeWhile p).length, cursor.rest.dropWhile p⟩

@[simp] theorem rest_advance (cursor : Cursor) (count : Nat) :
    (cursor.advance count).rest = cursor.rest.drop count := rfl

@[simp] theorem rest_skipWhile (cursor : Cursor) (p : Char → Bool) :
    (cursor.skipWhile p).rest = cursor.rest.dropWhile p := rfl

/-- Skipping does not lengthen what is left. -/
theorem length_skipWhile_le (cursor : Cursor) (p : Char → Bool) :
    (cursor.skipWhile p).rest.length ≤ cursor.rest.length :=
  (List.dropWhile_suffix p).length_le

end Cursor

/-- The blanks that may stand around literals. -/
def isGap (c : Char) : Bool :=
  c == ' ' || c == '\t' || c == '\r' || c == '\n'

/-- The place after the blanks that may stand here. -/
def Cursor.skipGap (cursor : Cursor) : Cursor :=
  cursor.skipWhile isGap

/-- Nothing but blanks may follow. -/
def Cursor.expectEnd (cursor : Cursor) : Except ReadError Unit :=
  let place := cursor.skipGap
  if place.rest.isEmpty then .ok () else .error ⟨.trailingCharacters, place.offset⟩

end ResourceLiterals.Literal
