import ResourceLiterals.Text.Numeral

/-!
# Dates and times

The dates and times of RFC 3339, alone or together, and their ISO texts.  A time of day may leave
out its seconds.

* `Date` and `Time` with the offset that may follow a time.
* `readDate` and `readTime` read them; a day that the calendar does not have is refused.
* `momentText?` reads either or both and writes the ISO text.
-/

namespace ResourceLiterals.Toml

open Text (digitsValue padded)

structure Date where
  year : Nat
  month : Nat
  day : Nat
deriving DecidableEq, Repr

/-- A time of day, in microseconds below the second. -/
structure Time where
  hour : Nat
  minute : Nat
  second : Nat
  microsecond : Nat
deriving DecidableEq, Repr

/-- Whether a year has a day more. -/
def isLeap (year : Nat) : Bool :=
  year % 4 == 0 && (year % 100 != 0 || year % 400 == 0)

def daysIn (year month : Nat) : Nat :=
  if month = 2 then (if isLeap year then 29 else 28)
  else if month ∈ [4, 6, 9, 11] then 30
  else 31

/-- Whether the calendar has such a day. -/
def Date.isValid (date : Date) : Bool :=
  1 ≤ date.year && date.year ≤ 9999 && 1 ≤ date.month && date.month ≤ 12 &&
    1 ≤ date.day && date.day ≤ daysIn date.year date.month

/-- Whether there is such a time of day. -/
def Time.isValid (time : Time) : Bool :=
  time.hour < 24 && time.minute < 60 && time.second < 60

/-! ## Texts -/

/-- A day as year, month and day. -/
def Date.text (date : Date) : List Char :=
  padded 10 4 date.year ++ '-' :: padded 10 2 date.month ++ '-' :: padded 10 2 date.day

/-- A time of day, with microseconds if there are any. -/
def Time.text (time : Time) : List Char :=
  padded 10 2 time.hour ++ ':' :: padded 10 2 time.minute ++ ':' :: padded 10 2 time.second ++
    (if time.microsecond = 0 then [] else '.' :: padded 10 6 time.microsecond)

/-- An offset from universal time in minutes. -/
def offsetText (minutes : Int) : List Char :=
  (if minutes < 0 then '-' else '+') ::
    (padded 10 2 (minutes.natAbs / 60) ++ ':' :: padded 10 2 (minutes.natAbs % 60))

/-! ## Reading -/

def readPair : List Char → Option (Nat × List Char)
  | a :: b :: rest =>
    if a.isDigit && b.isDigit then some (digitsValue [a, b], rest) else none
  | _ => none

/-- Reads one given character. -/
def readChar (wanted : Char) : List Char → Option (List Char)
  | [] => none
  | c :: rest => if c = wanted then some rest else none

/-- Reads a day: four digits for the year, and two each for month and day. -/
def readDate (chars : List Char) : Option (Date × List Char) := do
  let (century, rest) ← readPair chars
  let (year, rest) ← readPair rest
  let rest ← readChar '-' rest
  let (month, rest) ← readPair rest
  let rest ← readChar '-' rest
  let (day, rest) ← readPair rest
  let date : Date := ⟨100 * century + year, month, day⟩
  if date.isValid then some (date, rest) else none

/-- Reads the fraction of a second, of which six digits count. -/
def readFraction (chars : List Char) : Option (Nat × List Char) :=
  match chars with
  | '.' :: rest =>
    let digits := rest.takeWhile Char.isDigit
    if digits.isEmpty then none
    else some (digitsValue ((digits ++ List.replicate 6 '0').take 6), rest.dropWhile Char.isDigit)
  | _ => some (0, chars)

/-- Reads the seconds of a time of day with their fraction; both are zero where they are missing. -/
def readSeconds (chars : List Char) : Option (Nat × Nat × List Char) :=
  match chars with
  | ':' :: rest => do
    let (second, rest) ← readPair rest
    let (microsecond, rest) ← readFraction rest
    return (second, microsecond, rest)
  | _ => some (0, 0, chars)

def readTime (chars : List Char) : Option (Time × List Char) := do
  let (hour, rest) ← readPair chars
  let rest ← readChar ':' rest
  let (minute, rest) ← readPair rest
  let (second, microsecond, rest) ← readSeconds rest
  let time : Time := ⟨hour, minute, second, microsecond⟩
  if time.isValid then some (time, rest) else none

/-- Reads the offset that a text ends with, if it has one. -/
def readOffset : List Char → Option (List Char)
  | [] => some []
  | [c] => if c = 'Z' ∨ c = 'z' then some (offsetText 0) else none
  | sign :: rest => do
    if sign ≠ '+' ∧ sign ≠ '-' then none
    let (hours, rest) ← readPair rest
    let rest ← readChar ':' rest
    let (minutes, rest) ← readPair rest
    if rest ≠ [] ∨ 24 ≤ hours ∨ 60 ≤ minutes then none
    let total : Int := 60 * hours + minutes
    some (offsetText (if sign = '-' then -total else total))

/-- Whether a character stands between a day and a time of day. -/
def isDateTimeSeparator (c : Char) : Bool :=
  c == 'T' || c == 't' || c == ' '

/-- The ISO text of a day, of a time of day, or of both with an optional offset. -/
def momentText? (chars : List Char) : Option String :=
  match readDate chars with
  | some (date, []) => some (String.ofList date.text)
  | some (date, separator :: rest) => do
    if !isDateTimeSeparator separator then none
    let (time, rest) ← readTime rest
    let offset ← readOffset rest
    return String.ofList (date.text ++ 'T' :: time.text ++ offset)
  | none =>
    match readTime chars with
    | some (time, []) => some (String.ofList time.text)
    | _ => none

end ResourceLiterals.Toml
