import ResourceLiterals.Literal.Escape
import ResourceLiterals.Text.Numeral
import ResourceLiterals.Text.Quoted

/-!
# Contents as integers

A content that holds one decimal integer, with ASCII blanks around it.
-/

namespace ResourceLiterals.Subformat

open Text (NumeralFault)

/-- Why a content is no integer. -/
inductive IntegerFault where
  /-- It has a byte that is no ASCII character. -/
  | notAscii
  /-- Without the blanks around it, it is a text that is no numeral. -/
  | notDecimal (text : List Char)
  /-- It is a numeral with so many digits, more than are converted. -/
  | tooLong (digits : Nat)
deriving DecidableEq, Repr

/-- How many characters of a content are shown in a message about it. -/
def shownLength : Nat := 20

/-- The start of a text, with dots when there is more of it. -/
def excerpt (text : List Char) : List Char :=
  if text.length ≤ shownLength then text else text.take shownLength ++ ['.', '.', '.']

def IntegerFault.reason : IntegerFault → String
  | .notAscii => "content is not ASCII"
  | .notDecimal text => "not a decimal integer: " ++ String.ofList (Text.quotedChars (excerpt text))
  | .tooLong digits => Text.tooLongMessage digits

/-- The character that a byte stands for in ASCII, which has none for the upper half. -/
def asciiChar? (byte : UInt8) : Option Char :=
  if byte < 0x80 then some (Char.ofNat byte.toNat) else none

/-- Reads the integer that a content holds. -/
def readContent (data : Bytes) : Except IntegerFault Int :=
  match data.mapM asciiChar? with
  | none => .error .notAscii
  | some chars =>
    let text := Text.strip chars
    match Text.readInteger text with
    | .ok value => .ok value
    | .error .malformed => .error (.notDecimal text)
    | .error (.tooLong digits) => .error (.tooLong digits)

/-- The decimal numeral of an integer, with a minus if it is negative and no leading zeros. -/
def decimal (value : Int) : String := toString value

/-- The numeral of an integer as a content. -/
def writeContent (value : Int) : Bytes :=
  (decimal value).toList.map fun c => UInt8.ofNat c.toNat

end ResourceLiterals.Subformat
