import ResourceLiterals.Literal.Cursor
import ResourceLiterals.Text.Numeral

/-!
# Reading integer literals

An integer literal is a decimal numeral with blanks of any script around it.
-/

namespace ResourceLiterals.Literal

/-- Why a text is not read as an integer literal. -/
inductive IntegerError where
  | malformed (error : ReadError)
  /-- It has so many digits, more than are converted. -/
  | tooLong (digits : Nat)
deriving DecidableEq, Repr

/-- Reads a text that is one integer literal, with blanks around it. -/
def parseInteger (text : String) : Except IntegerError Int :=
  match Text.readInteger (Text.strip text.toList) with
  | .ok value => .ok value
  | .error .malformed =>
    .error (.malformed ⟨.noInteger, (Cursor.start text).skipGap.offset⟩)
  | .error (.tooLong digits) => .error (.tooLong digits)

end ResourceLiterals.Literal
