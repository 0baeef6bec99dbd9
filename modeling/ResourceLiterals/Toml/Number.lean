import ResourceLiterals.Text.Numeral
import ResourceLiterals.Toml.Value

/-!
# Numbers

Reading the integers and floats of TOML from the characters of one token.

* `withoutUnderscores` leaves out the underscores between digits.
* `readFloat` reads decimal fractions, infinities and the like.
* `readNumber` is either: an integer if possible, otherwise a float if it is written as one.
-/

namespace ResourceLiterals.Toml

open Text (signed splitSign)

/-- Whether a character is a digit of a base. -/
def isDigitOf (base : Nat) (c : Char) : Bool := (Text.digitValue? base c).isSome

/-- Leaves out the underscores that stand between two digits; `before` is what comes before. -/
def withoutUnderscores (base : Nat) (before : Option Char) : List Char → List Char
  | [] => []
  | c :: rest =>
    let others := withoutUnderscores base (some c) rest
    if c = '_' ∧ before.any (isDigitOf base) ∧ rest.head?.any (isDigitOf base) then others
    else c :: others

/-- Decimal digits of any script as those of ASCII. -/
def asciiDigit (c : Char) : Char :=
  match Text.decimalValue? c with
  | some value => Char.ofNat ('0'.toNat + value)
  | none => c

/-- Reads the exponent of a float, if there is one. -/
def readExponent : List Char → Option Int
  | [] => some 0
  | 'e' :: rest =>
    let (negative, digits) := splitSign rest
    if digits.isEmpty || !digits.all Char.isDigit then none
    else some (signed negative (Text.digitsValue digits))
  | _ => none

/-- The double nearest to `mantissa * 10 ^ exponent`.  Beyond the ends of the range the exponent as
such does not matter. -/
def nearestFloat (mantissa : Nat) (exponent : Int) : Float :=
  let size : Int := (Nat.toDigits 10 mantissa).length
  if mantissa = 0 ∨ size + exponent < -400 then 0.0
  else if size + exponent > 400 then Float.ofScientific 1 false 400
  else if exponent < 0 then Float.ofScientific mantissa true exponent.natAbs
  else Float.ofScientific mantissa false exponent.natAbs

def readMagnitude (chars : List Char) : Option Float :=
  if chars = "inf".toList then
    some (1.0 / 0.0)
  else if chars = "nan".toList then
    some (0.0 / 0.0)
  else
    let whole := chars.takeWhile Char.isDigit
    let rest := chars.dropWhile Char.isDigit
    let (fraction, rest) :=
      match rest with
      | '.' :: rest => (rest.takeWhile Char.isDigit, rest.dropWhile Char.isDigit)
      | _ => ([], rest)
    if whole.isEmpty && fraction.isEmpty then
      none
    else
      (readExponent rest).map fun exponent =>
        nearestFloat (Text.digitsValue (whole ++ fraction)) (exponent - fraction.length)

def readFloat (chars : List Char) : Option Float :=
  let (negative, magnitude) := splitSign chars
  (readMagnitude magnitude).map fun x => if negative then -x else x

/-- Reads an integer in base two, eight or sixteen, with its two-character mark and perhaps blanks
after it. -/
def readBased (base : Nat) (chars : List Char) : Option Int :=
  let digits := ((Text.strip chars).drop 2).map asciiDigit
  if digits.isEmpty then none
  else (digits.mapM (Text.digitValue? base)).map fun values => Text.placeValue base values

/-- The base that a token without its sign announces. -/
def announcedBase : List Char → Option Nat
  | '0' :: 'b' :: _ => some 2
  | '0' :: 'o' :: _ => some 8
  | '0' :: 'x' :: _ => some 16
  | _ => none

/-- Whether a token without its sign starts as no number may: with a zero before other digits, or
with a point after a sign. -/
def startsBadly (hasSign : Bool) (token : List Char) : Bool :=
  match token with
  | '0' :: second :: _ => !(['.', 'o', 'x', 'b', 'e', 'E'].contains second)
  | '.' :: _ :: _ => hasSign
  | _ => false

/-- Whether a token is written as a float: with a point or an exponent, or as one of the two words.
`body` is the token without its sign, `clean` the same in small letters without underscores. -/
def isFloatLike (body clean : List Char) : Bool :=
  clean.contains '.' || clean.contains 'e' || body = "inf".toList || body = "nan".toList

/-- Reads a number from the characters of a token. -/
def readNumber (token : List Char) : Option Value :=
  let hasSign := token.head? = some '+' ∨ token.head? = some '-'
  let body := if hasSign then token.drop 1 else token
  let base := announcedBase body
  if startsBadly hasSign body || (base.isSome && hasSign) then
    none
  else
    let clean := (withoutUnderscores (base.getD 10) none body).map Char.toLower
    if clean.contains '_' || clean.getLast? = some '.' ||
        (base ≠ some 16 && (clean.takeWhile (· != 'e')).getLast? = some '.') then
      none
    else
      match base with
      | some base => (readBased base clean).map .integer
      | none =>
        let chars := (Text.strip ((if hasSign then token.take 1 else []) ++ clean)).map asciiDigit
        match Text.readInteger chars with
        | .ok value => some (.integer value)
        | .error _ => if isFloatLike body clean then (readFloat chars).map .float else none

end ResourceLiterals.Toml
