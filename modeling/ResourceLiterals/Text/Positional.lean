/-!
# Digits and places

Positional notation in ASCII digits, up to base sixteen.

* `digitValue?` is the value of a digit, `placeValue` that of a row of digits.
* `padded` writes a number with at least so many digits.
-/

namespace ResourceLiterals.Text

/-- The value of a digit of base sixteen, in either case. -/
def hexValue? (c : Char) : Option Nat :=
  if '0' ≤ c ∧ c ≤ '9' then some (c.toNat - '0'.toNat)
  else if 'a' ≤ c ∧ c ≤ 'f' then some (c.toNat - 'a'.toNat + 10)
  else if 'A' ≤ c ∧ c ≤ 'F' then some (c.toNat - 'A'.toNat + 10)
  else none

/-- The value of a digit of a base that is at most sixteen. -/
def digitValue? (base : Nat) (c : Char) : Option Nat :=
  (hexValue? c).filter (· < base)

/-- The value of a row of digits, given by their values, most significant first. -/
def placeValue (base : Nat) (digits : List Nat) : Nat :=
  digits.foldl (fun value digit => base * value + digit) 0

/-- A number in digits of a base, filled up with zeros to `width` of them. -/
def padded (base width value : Nat) : List Char :=
  let digits := Nat.toDigits base value
  List.replicate (width - digits.length) '0' ++ digits

end ResourceLiterals.Text
