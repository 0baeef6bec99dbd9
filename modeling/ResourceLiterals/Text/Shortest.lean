/-!
# Decimal texts of binary fractions

A double stands for all reals that round to it, and is written with the fewest digits that pick one
of them, the nearest if there are several.

* `Binary` is a positive double as `mantissa * 2 ^ exponent`, and `Binary.interval` holds the reals
  that round to it.
* `Binary.shortest` gives the digits.
* `floatText` writes them: positional from `0.0001` up to sixteen digits before the point, with an
  exponent outside of that.
-/

namespace ResourceLiterals.Text

/-- A positive double: `mantissa * 2 ^ exponent`. -/
structure Binary where
  mantissa : Nat
  exponent : Int
deriving DecidableEq, Repr

namespace Binary

/-- A double from the fields of its representation. -/
def ofFields (exponent fraction : Nat) : Binary :=
  if exponent = 0 then ⟨fraction, -1074⟩ else ⟨Nat.pow 2 52 + fraction, exponent - 1075⟩

/-- The distance to the next lower double is half of that to the next higher one. -/
def isLowest (x : Binary) : Bool :=
  x.mantissa == Nat.pow 2 52 && x.exponent != -1074

/-- Four times the mantissa, and the ends of the interval in the same unit, as multiples of
`numerator / denominator`. -/
structure Interval where
  low : Nat
  value : Nat
  high : Nat
  numerator : Nat
  denominator : Nat
  closed : Bool
deriving DecidableEq, Repr

/-- The reals that round to a double. -/
def interval (x : Binary) : Interval where
  low := 4 * x.mantissa - (if x.isLowest then 1 else 2)
  value := 4 * x.mantissa
  high := 4 * x.mantissa + 2
  numerator := if x.exponent < 2 then 1 else Nat.pow 2 (x.exponent - 2).toNat
  denominator := if x.exponent < 2 then Nat.pow 2 (2 - x.exponent).toNat else 1
  closed := x.mantissa % 2 = 0

/-- The exponent `k` with `10 ^ k ≤ p / q < 10 ^ (k + 1)`. -/
def leadingExponent (p q : Nat) : Int :=
  if q ≤ p then
    (Nat.toDigits 10 (p / q)).length - 1
  else
    let places := (Nat.toDigits 10 (q / p)).length
    if q ≤ p * Nat.pow 10 (places - 1) then 1 - (places : Int) else -(places : Int)

/-- Whether the decimal `digits * 10 ^ exponent` lies in the interval. -/
def Interval.holds (i : Interval) (digits : Nat) (exponent : Int) : Bool :=
  let p := digits * Nat.pow 10 exponent.toNat * i.denominator
  let unit := i.numerator * Nat.pow 10 (-exponent).toNat
  if i.closed then i.low * unit ≤ p && p ≤ i.high * unit
  else i.low * unit < p && p < i.high * unit

/-- The decimal with its last digit at `10 ^ exponent` that is nearest to the double among those in
the interval. -/
def Interval.nearest? (i : Interval) (exponent : Int) : Option Nat :=
  let p := i.value * i.numerator * Nat.pow 10 (-exponent).toNat
  let q := i.denominator * Nat.pow 10 exponent.toNat
  let below := p / q
  let above := below + 1
  match i.holds below exponent, i.holds above exponent with
  | true, true =>
    let rest := 2 * (p % q)
    some (if rest < q || (rest == q && below % 2 == 0) then below else above)
  | true, false => some below
  | false, true => some above
  | false, false => none

/-- The first of the given numbers of digits with which a decimal is found, as the digits and the
exponent of the last one. -/
def Interval.firstHit (i : Interval) (leading : Int) : List Nat → Nat × Int
  | [] => (0, 0)
  | count :: counts =>
    let exponent := leading - (count - 1 : Nat)
    match i.nearest? exponent with
    | some digits => (digits, exponent)
    | none => i.firstHit leading counts

/-- The shortest decimal that rounds to a double: its digits and the exponent of the last one. -/
def shortest (x : Binary) : Nat × Int :=
  let i := x.interval
  i.firstHit (leadingExponent (i.value * i.numerator) i.denominator) (List.range' 1 17)

end Binary

/-- The digits without the zeros at their end, of which one is kept. -/
def trimZeros (digits : List Char) : List Char :=
  match (digits.reverse.dropWhile (· == '0')).reverse with
  | [] => ['0']
  | kept => kept

/-- The exponent of a decimal, with its sign and at least two digits. -/
def exponentText (exponent : Int) : List Char :=
  let digits := Nat.toDigits 10 exponent.natAbs
  (if exponent < 0 then '-' else '+') :: (if digits.length < 2 then '0' :: digits else digits)

/-- A positive decimal given by its digits and the exponent of the first one. -/
def decimalText (digits : List Char) (leading : Int) : List Char :=
  if leading < -4 ∨ 16 ≤ leading then
    let fraction := digits.drop 1
    digits.take 1 ++ (if fraction.isEmpty then [] else '.' :: fraction) ++
      'e' :: exponentText leading
  else if leading < 0 then
    ['0', '.'] ++ List.replicate (-leading - 1).toNat '0' ++ digits
  else
    let whole := leading.toNat + 1
    let fraction := digits.drop whole
    digits.take whole ++ List.replicate (whole - digits.length) '0' ++
      '.' :: (if fraction.isEmpty then ['0'] else fraction)

def floatText (x : Float) : String :=
  if x.isNaN then
    "nan"
  else
    let bits := x.toBits.toNat
    let magnitude := bits % Nat.pow 2 63
    let text :=
      if magnitude = 0 then ['0', '.', '0']
      else if magnitude / Nat.pow 2 52 = 2047 then ['i', 'n', 'f']
      else
        let binary := Binary.ofFields (magnitude / Nat.pow 2 52) (magnitude % Nat.pow 2 52)
        let (digits, last) := binary.shortest
        let digits := Nat.toDigits 10 digits
        decimalText (trimZeros digits) (last + (digits.length - 1 : Nat))
    String.ofList (if bits / Nat.pow 2 63 = 1 then '-' :: text else text)

end ResourceLiterals.Text
