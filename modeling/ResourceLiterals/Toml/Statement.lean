import ResourceLiterals.Toml.Entries
import ResourceLiterals.Toml.Moment
import ResourceLiterals.Toml.Number

/-!
# Statements

A TOML text is a sequence of statements: headers that open a table and entries that go into the
table that is open.

* `readKey` reads a key of one or more parts, `readValue` a value.  Tables in braces may be spread
  over lines like arrays, with comments and a comma after the last entry.
* `statements` reads a text, as far as it can be read, and says what is wrong with the rest.
-/

namespace ResourceLiterals.Toml

/-- A line of a TOML text. -/
inductive Statement where
  /-- Opens the table of a key, or another element of an array of tables. -/
  | header (element : Bool) (key : List String)
  /-- Puts a value under a key of the open table. -/
  | entry (key : List String) (value : Value)

/-- How many parts a key may have, and how deep arrays and tables in braces may be nested. -/
def maxDepth : Nat := 100

/-! ## Blanks and comments -/

/-- A blank within a line. -/
def isBlank (c : Char) : Bool := c == ' ' || c == '\t'

def skipBlanks (chars : List Char) : List Char := chars.dropWhile isBlank

/-- Reads a comment from after its mark, up to the end of the line. -/
def readComment (chars : List Char) : Except Fault (List Char) :=
  let comment := chars.takeWhile (· != '\n')
  if comment.any fun c => c.toNat = 0x7F || (c.toNat < 0x20 && c != '\t') then .error .malformed
  else .ok (chars.dropWhile (· != '\n'))

/-- What is left after the blanks, line breaks and comments here.  Every comment takes a character,
so `fuel` only has to exceed their number. -/
def skipLines : (fuel : Nat) → List Char → Except Fault (List Char)
  | 0, _ => .error .malformed
  | fuel + 1, chars =>
    match chars.dropWhile isSpacing with
    | '#' :: rest =>
      match readComment rest with
      | .error fault => .error fault
      | .ok rest => skipLines fuel rest
    | rest => .ok rest

/-- Reads what may follow a statement on its line. -/
def readLineEnd (chars : List Char) : Except Fault (List Char) :=
  match skipBlanks chars with
  | [] => .ok []
  | '\n' :: rest => .ok rest
  | '#' :: rest => readComment rest
  | _ => .error .malformed

/-! ## Keys -/

/-- Whether a character may stand in a key without quotes. -/
def isBareKeyChar (c : Char) : Bool :=
  c.isAlphanum || c == '-' || c == '_'

/-- Reads one part of a key and the blanks after it. -/
def readKeyPart (chars : List Char) : Except Fault (String × List Char) :=
  let chars := skipBlanks chars
  match chars with
  | '"' :: '"' :: '"' :: _ => .error .malformed
  | '\'' :: '\'' :: '\'' :: _ => .error .malformed
  | c :: rest =>
    if c = '"' ∨ c = '\'' then
      (readText c rest).map fun (key, rest) => (key, skipBlanks rest)
    else
      let part := chars.takeWhile fun c => isBareKeyChar c || isBlank c
      let key := (part.reverse.dropWhile isBlank).reverse
      if key.isEmpty || key.any isBlank then .error .malformed
      else .ok (String.ofList key, chars.drop part.length)
  | [] => .error .malformed

/-- Reads a key of up to `limit` parts, which are separated by points. -/
def readKeyParts : (limit : Nat) → List Char → Except Fault (List String × List Char)
  | 0, _ => .error .malformed
  | limit + 1, chars =>
    match readKeyPart chars with
    | .error fault => .error fault
    | .ok (part, '.' :: rest) =>
      (readKeyParts limit rest).map fun (parts, rest) => (part :: parts, rest)
    | .ok (part, rest) => .ok ([part], rest)

def readKey (chars : List Char) : Except Fault (List String × List Char) :=
  readKeyParts maxDepth chars

/-- Reads the equals sign after a key, and the blanks after it. -/
def readEquals (chars : List Char) : Except Fault (List Char) :=
  match chars with
  | '=' :: rest => .ok (skipBlanks rest)
  | _ => .error .malformed

/-! ## Values -/

/-- Whether a character ends the token of a number or a date. -/
def endsToken (c : Char) : Bool :=
  c == ' ' || c == '\t' || c == '\n' || c == '\r' || c == '#' || c == ',' || c == ']' || c == '}'

def readToken (chars : List Char) : Except Fault (Value × List Char) :=
  let token := chars.takeWhile (!endsToken ·)
  let rest := chars.dropWhile (!endsToken ·)
  match readDate token with
  | some (_, []) =>
    -- A blank may stand between a day and a time of day.
    let timeEnds := fun c => endsToken c && c != ' '
    let time := Text.dropEndWhile Text.isBlank (rest.takeWhile (!timeEnds ·))
    match momentText? (token ++ time) with
    | some text => .ok (.moment text, rest.dropWhile (!timeEnds ·))
    | none => .error .malformed
  | _ =>
    match momentText? token with
    | some text => .ok (.moment text, rest)
    | none =>
      match readNumber token with
      | some value => .ok (value, rest)
      | none => .error .malformed

def afterWord (word : String) (chars : List Char) : Option (List Char) :=
  if word.toList.isPrefixOf chars then some (chars.drop word.length) else none

/-- Whether a token without a sign is an infinity or no number. -/
def isSpecialFloat (chars : List Char) : Bool :=
  let token := chars.takeWhile (!endsToken ·)
  token = "inf".toList || token = "nan".toList

/-- Reads a value that holds no other values. -/
def readScalar (chars : List Char) : Except Fault (Value × List Char) :=
  match chars with
  | [] => .error .malformed
  | c :: rest =>
    if c = '"' ∨ c = '\'' then
      (readText c rest).map fun (text, rest) => (.string text, rest)
    else if c = '+' ∨ c = '-' ∨ c.isDigit ∨ isSpecialFloat chars then
      readToken chars
    else
      match afterWord "true" chars, afterWord "false" chars with
      | some rest, _ => .ok (.boolean true, rest)
      | _, some rest => .ok (.boolean false, rest)
      | none, none => .error .malformed

/-- Why a value cannot be read. -/
inductive Stop where
  | fault (fault : Fault)
  /-- A closing bracket stands where a table in braces has to go on.  An array around that table
  takes the bracket for its own and leaves the table out, so what follows the bracket is kept. -/
  | bracket (rest : List Char)

/-- Why reading stops at characters that do not fit. -/
def Stop.ahead (chars : List Char) : Stop :=
  match chars with
  | ']' :: rest => .bracket rest
  | _ => .fault .malformed

mutual

/-- Reads a value, in which arrays and tables in braces may be nested `depth` times.  Every value
takes at least one character, and so does every item of an array or a table, so twice the length of
the text is enough `fuel`. -/
def readValue : (fuel depth : Nat) → List Char → Except Stop (Value × List Char)
  | 0, _, _ => .error (.fault .malformed)
  | fuel + 1, depth, chars =>
    match chars, depth with
    | '[' :: rest, depth + 1 =>
      (readItems fuel depth false rest).map fun (items, rest) => (.array items, rest)
    | '\x7b' :: rest, depth + 1 => do
      let (entries, rest) ← readInline fuel depth false [] rest
      let table ← (toTable fuel entries).mapError .fault
      return (.table table, rest)
    | _, _ => (readScalar chars).mapError fun _ => .ahead chars

/-- Reads the items of an array up to its bracket; `complete` says whether an item has just been
read, so that a comma has to come before the next one. -/
def readItems : (fuel depth : Nat) → (complete : Bool) → List Char →
    Except Stop (List Value × List Char)
  | 0, _, _, _ => .error (.fault .malformed)
  | fuel + 1, depth, complete, chars =>
    match skipLines fuel chars with
    | .error fault => .error (.fault fault)
    | .ok [] => .error (.fault .malformed)
    | .ok (']' :: rest) => .ok ([], rest)
    | .ok (c :: rest) =>
      if complete then
        if c = ',' then readItems fuel depth false rest else .error (.fault .malformed)
      else
        match readValue fuel depth (c :: rest) with
        | .error (.bracket rest) => .ok ([], rest)
        | .error stop => .error stop
        | .ok (item, rest) =>
          (readItems fuel depth true rest).map fun (items, rest) => (item :: items, rest)

/-- Reads the entries of a table between braces up to the closing one; `complete` says whether an
entry has just been read, so that a comma has to come before the next one. -/
def readInline : (fuel depth : Nat) → (complete : Bool) → List Entry → List Char →
    Except Stop (List Entry × List Char)
  | 0, _, _, _, _ => .error (.fault .malformed)
  | fuel + 1, depth, complete, entries, chars =>
    match skipLines fuel chars with
    | .error fault => .error (.fault fault)
    | .ok [] => .error (.fault .malformed)
    | .ok ('\x7d' :: rest) => .ok (entries, rest)
    | .ok (c :: rest) =>
      if complete then
        if c = ',' then readInline fuel depth false entries rest else .error (.ahead (c :: rest))
      else do
        let (key, rest) ← (readKey (c :: rest)).mapError .fault
        let rest ← (readEquals rest).mapError fun _ => .ahead rest
        let (value, rest) ← readValue fuel depth rest
        match keyedEntry value key with
        | some entry =>
          let entries ← (insert fuel true entries entry).mapError .fault
          readInline fuel depth true entries rest
        | none => .error (.fault .malformed)

end

/-! ## Statements -/

/-- Reads a header from after its first bracket, up to the end of its key. -/
def readHeader (chars : List Char) : Except Fault (Statement × List Char) :=
  match chars with
  | '[' :: rest => (readKey rest).map fun (key, rest) => (.header true key, rest)
  | _ => (readKey chars).map fun (key, rest) => (.header false key, rest)

/-- Reads an entry up to the end of its value. -/
def readEntry (fuel : Nat) (chars : List Char) : Except Fault (Statement × List Char) := do
  let (key, rest) ← readKey chars
  match readValue fuel maxDepth (← readEquals rest) with
  | .ok (value, rest) => return (.entry key value, rest)
  | .error (.fault fault) => throw fault
  | .error (.bracket _) => throw .malformed

/-- Reads what has to follow a statement on its line. -/
def readRest : Statement → List Char → Except Fault (List Char)
  | .header true _, ']' :: ']' :: rest => readLineEnd rest
  | .header false _, ']' :: rest => readLineEnd rest
  | .header .., _ => .error .malformed
  | .entry .., rest => readLineEnd rest

/-- Whether a statement counts although something is wrong with the rest of its line.  Once the key
of a header is known, the tables before it are complete. -/
def Statement.countsAtOnce : Statement → Bool
  | .header .. => true
  | .entry .. => false

/-- Reads statements as far as possible, and tells what keeps the rest from being read. -/
def readStatements : (fuel : Nat) → List Char → List Statement × Option Fault
  | 0, _ => ([], some .malformed)
  | fuel + 1, chars =>
    match skipBlanks chars with
    | [] => ([], none)
    | '\n' :: rest => readStatements fuel rest
    | '#' :: rest =>
      match readComment rest with
      | .error fault => ([], some fault)
      | .ok rest => readStatements fuel rest
    | c :: rest =>
      match if c = '[' then readHeader rest else readEntry fuel (c :: rest) with
      | .error fault => ([], some fault)
      | .ok (statement, rest) =>
        match readRest statement rest with
        | .error fault => (if statement.countsAtOnce then [statement] else [], some fault)
        | .ok rest =>
          let (others, fault) := readStatements fuel rest
          (statement :: others, fault)

/-- Enough fuel for reading a text of so many characters. -/
def fuelFor (chars : List Char) : Nat := 2 * chars.length + 4

/-- The statements of a text, and what keeps the rest from being read. -/
def statements (chars : List Char) : List Statement × Option Fault :=
  readStatements (fuelFor chars) chars

end ResourceLiterals.Toml
