import ResourceLiterals.Text.Numeral
import ResourceLiterals.Text.Split
import ResourceLiterals.Toml.Reader

/-!
# Strings

Reading the four kinds of TOML string: basic and literal ones, each on one line or between three
quotes.  Basic strings know escapes; the long forms may hold line breaks.

* `readEscape` reads what follows a backslash.
* `readBody` reads up to the closing quotes.
* `readText` reads a string from after its first quote.
-/

namespace ResourceLiterals.Toml

/-- How a string is delimited. -/
structure Delimiter where
  /-- The quote, which is a double one for basic strings. -/
  quote : Char
  /-- Whether there are three of them at either end. -/
  long : Bool
deriving DecidableEq, Repr

/-- Whether a string with such quotes knows escapes. -/
def Delimiter.basic (delimiter : Delimiter) : Bool := delimiter.quote == '"'

/-- Whether a character must not stand in a string as it is. -/
def Delimiter.forbids (delimiter : Delimiter) (c : Char) : Bool :=
  c.toNat = 0x7F || (c.toNat < 0x20 && c != '\t' && !(delimiter.long && (c == '\n' || c == '\r')))

/-- Whether a character is skipped after a backslash at the end of a line. -/
def isSpacing (c : Char) : Bool :=
  c == ' ' || c == '\t' || c == '\n' || c == '\r'

/-- The character of an escape of one letter. -/
def letterEscape? : Char → Option Char
  | 'b' => some '\x08'
  | 'e' => some '\x1b'
  | 't' => some '\t'
  | 'n' => some '\n'
  | 'f' => some '\x0c'
  | 'r' => some '\r'
  | '"' => some '"'
  | '\\' => some '\\'
  | _ => none

/-- What is left after the mark of base sixteen and one underscore after it, if they are there. -/
def afterHexMark (chars : List Char) : List Char :=
  match chars with
  | '0' :: mark :: rest =>
    if mark = 'x' ∨ mark = 'X' then
      match rest with
      | '_' :: digits => digits
      | digits => digits
    else chars
  | _ => chars

/-- The number that a text gives in base sixteen.  Apart from plain digits there may be blanks at
both ends, a sign, the mark of the base, digits of other scripts and single underscores between
digits. -/
def hexNumber? (chars : List Char) : Option Int := do
  let (negative, unsigned) := Text.splitSign (Text.strip chars)
  let groups := Text.splitWhere (· == '_') (afterHexMark unsigned)
  if groups.any List.isEmpty then none
  let digits ← groups.flatten.mapM fun c => Text.hexValue? c <|> Text.decimalValue? c
  return Text.signed negative (Text.placeValue 16 digits)

/-- Reads a code point that is given in `count` characters. -/
def readCodePoint (count : Nat) (chars : List Char) : Except Fault (Char × List Char) :=
  match hexNumber? (chars.take count) with
  | some (.ofNat code) =>
    if chars.length < count ∨ ¬ code.isValidChar then .error .malformed
    else .ok (Char.ofNat code, chars.drop count)
  | _ => .error .malformed

/-- Reads what follows a backslash, as the characters that it stands for. -/
def readEscape (long : Bool) (chars : List Char) : Except Fault (List Char × List Char) :=
  match chars with
  | [] => .error .malformed
  | c :: rest =>
    if long && isSpacing c then
      if (chars.takeWhile isSpacing).contains '\n' then .ok ([], chars.dropWhile isSpacing)
      else .error .malformed
    else
      match letterEscape? c with
      | some meant => .ok ([meant], rest)
      | none =>
        if c = 'x' then (readCodePoint 2 rest).map fun (meant, rest) => ([meant], rest)
        else if c = 'u' then (readCodePoint 4 rest).map fun (meant, rest) => ([meant], rest)
        else if c = 'U' then (readCodePoint 8 rest).map fun (meant, rest) => ([meant], rest)
        else .error .malformed

/-- Reads up to the closing quotes; `read` holds what has been read, latest first.  Each turn takes
at least one character, so `fuel` only has to exceed their number. -/
def readBody (delimiter : Delimiter) : (fuel : Nat) → (read : List Char) → List Char →
    Except Fault (String × List Char)
  | 0, _, _ => .error .malformed
  | _, _, [] => .error .malformed
  | fuel + 1, read, c :: rest =>
    if delimiter.forbids c then
      .error .malformed
    else if c = delimiter.quote then
      if delimiter.long then
        let run := (c :: rest).takeWhile (· == c)
        let after := (c :: rest).dropWhile (· == c)
        if run.length < 3 then readBody delimiter fuel (run ++ read) after
        else if run.length < 6 then
          .ok (String.ofList (run.drop 3 ++ read).reverse, after)
        else .error .malformed
      else
        .ok (String.ofList read.reverse, rest)
    else if c = '\\' ∧ delimiter.basic then
      match readEscape delimiter.long rest with
      | .error fault => .error fault
      | .ok (meant, rest) => readBody delimiter fuel (meant ++ read) rest
    else
      readBody delimiter fuel (c :: read) rest

/-- Reads a string from after its first quote.  A line break right after three quotes is left
out. -/
def readText (quote : Char) (chars : List Char) : Except Fault (String × List Char) :=
  match chars with
  | [] => .error .malformed
  | c :: rest =>
    if c = quote then
      match rest with
      | d :: rest' =>
        if d = quote then
          let body :=
            match rest' with
            | '\n' :: body => body
            | _ => rest'
          readBody ⟨quote, true⟩ (body.length + 1) [] body
        else .ok ("", rest)
      | [] => .ok ("", [])
    else
      readBody ⟨quote, false⟩ (chars.length + 1) [] chars

end ResourceLiterals.Toml
