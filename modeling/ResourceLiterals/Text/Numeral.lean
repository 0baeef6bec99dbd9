import ResourceLiterals.Text.Blank
import ResourceLiterals.Text.Digit
import ResourceLiterals.Text.Positional

/-!
# Decimal numerals

Reading integers written in decimal: an optional sign and one or more ASCII digits.  Numerals with
more than `digitLimit` digits are not converted; leading zeros count, the sign does not.
-/

namespace ResourceLiterals.Text

/-- The most digits that a numeral may have. -/
def digitLimit : Nat := 4300

/-- Why a text is not read as an integer. -/
inductive NumeralFault where
  | malformed
  /-- It is a numeral with so many digits, more than are allowed. -/
  | tooLong (digits : Nat)
deriving DecidableEq, Repr

/-- The message about a numeral with too many digits. -/
def tooLongMessage (digits : Nat) : String :=
  s!"Exceeds the limit ({digitLimit} digits) for integer string conversion: " ++
    s!"value has {digits} digits; use sys.set_int_max_str_digits() to increase the limit"

/-- The sign of a numeral, true for a minus, and what follows it. -/
def splitSign : List Char → Bool × List Char
  | '-' :: rest => (true, rest)
  | '+' :: rest => (false, rest)
  | chars => (false, chars)

/-- The value of ASCII digits, most significant first. -/
def digitsValue (digits : List Char) : Nat :=
  placeValue 10 (digits.map fun digit => digit.toNat - '0'.toNat)

/-- The value with the sign that goes with it. -/
def signed (negative : Bool) (value : Nat) : Int :=
  if negative then -(value : Int) else value

/-- Reads an integer from a text that holds nothing else. -/
def readInteger (chars : List Char) : Except NumeralFault Int :=
  let (negative, digits) := splitSign chars
  if digits.isEmpty || !digits.all Char.isDigit then
    .error .malformed
  else if digits.length > digitLimit then
    .error (.tooLong digits.length)
  else
    .ok (signed negative (digitsValue digits))

end ResourceLiterals.Text
