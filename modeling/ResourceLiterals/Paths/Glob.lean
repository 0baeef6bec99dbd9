/-!
# Wildcards in path names

A pattern for part of a path is a list of pieces, and a text matches when the pieces can take it up
from its start, one after the other.

* `CharSet` is what a piece accepts in one place, `Piece` how often.
* `takeUp` says whether a list of pieces matches at the start of a text.
* `Glob.parse` reads the pieces of one path segment from its wildcards.
-/

namespace ResourceLiterals.Paths

/-- The characters that are accepted in one place. -/
inductive CharSet where
  | just (c : Char)
  | inSegment
  | onLine
  /-- The members of a bracket expression, or all others if it is negated. -/
  | bracket (negated : Bool) (members : List (Char × Char))
deriving DecidableEq, Repr

def CharSet.holds (c : Char) : CharSet → Bool
  | .just wanted => c == wanted
  | .inSegment => c != '/'
  | .onLine => c != '\n'
  | .bracket negated members => negated != members.any fun (low, high) => low ≤ c && c ≤ high

/-- A part of a pattern. -/
inductive Piece where
  | one (set : CharSet)
  | many (set : CharSet)
  /-- Nothing, or something that ends with a slash. -/
  | leadingFolders
  /-- Nothing, or something that starts with a slash and goes on. -/
  | innerFolders
  /-- A slash or the end of the text. -/
  | boundary
deriving DecidableEq, Repr

/-- How much a piece adds to the work of matching. -/
def Piece.weight : Piece → Nat
  | .leadingFolders | .innerFolders => 4
  | _ => 1

/-- How much a list of pieces adds to the work of matching. -/
def weight : List Piece → Nat
  | [] => 0
  | piece :: pieces => piece.weight + weight pieces

/-- Whether the pieces can take up the text from its start; what follows them does not matter. -/
def takeUp : List Piece → List Char → Bool
  | [], _ => true
  | .one _ :: _, [] => false
  | .one set :: pieces, c :: rest => set.holds c && takeUp pieces rest
  | .many _ :: pieces, [] => takeUp pieces []
  | .many set :: pieces, c :: rest =>
    takeUp pieces (c :: rest) || (set.holds c && takeUp (.many set :: pieces) rest)
  | .leadingFolders :: pieces, text =>
    takeUp pieces text ||
      takeUp (.one .onLine :: .many .onLine :: .one (.just '/') :: pieces) text
  | .innerFolders :: pieces, text =>
    takeUp pieces text ||
      takeUp (.one (.just '/') :: .one .onLine :: .many .onLine :: pieces) text
  | .boundary :: pieces, [] => takeUp pieces []
  | .boundary :: pieces, c :: rest =>
    (c == '/' && takeUp pieces rest) || (c == '\n' && rest.isEmpty && takeUp pieces [c])
termination_by pieces text => weight pieces + text.length
decreasing_by all_goals simp [weight, Piece.weight] <;> omega

/-! ## Reading wildcards -/

/-- Why the wildcards of a segment are not read. -/
inductive GlobFault where
  /-- The segment ends with a backslash that has nothing to act on. -/
  | danglingBackslash
  /-- A bracket expression has no end. -/
  | unclosedBracket
deriving DecidableEq, Repr

/-- The members of a bracket expression: single characters and ranges. -/
def members : List Char → List (Char × Char)
  | [] => []
  | low :: '-' :: high :: rest => (low, high) :: members rest
  | c :: rest => (c, c) :: members rest

/-- Splits what follows an opening bracket into the body of the bracket expression and the rest
after its closing bracket.  A closing bracket that comes first belongs to the body. -/
def splitBracket (chars : List Char) : Option (List Char × List Char) :=
  let (first, others) :=
    match chars with
    | ']' :: rest => ([']'], rest)
    | _ => ([], chars)
  match others.dropWhile (· != ']') with
  | [] => none
  | _ :: rest => some (first ++ others.takeWhile (· != ']'), rest)

/-- Reads what follows an opening bracket, up to the closing one. -/
def readBracket (chars : List Char) : Option (CharSet × List Char) :=
  let (negated, chars) :=
    match chars with
    | '!' :: rest => (true, rest)
    | '^' :: rest => (true, rest)
    | _ => (false, chars)
  (splitBracket chars).map fun (body, rest) => (.bracket negated (members body), rest)

/-- Reads the pieces of a segment; `fuel` bounds their number. -/
def readPieces : (fuel : Nat) → List Char → Except GlobFault (List Piece)
  | 0, _ => .ok []
  | _, [] => .ok []
  | fuel + 1, c :: rest =>
    match c with
    | '\\' =>
      match rest with
      | [] => .error .danglingBackslash
      | escaped :: rest => (readPieces fuel rest).map (.one (.just escaped) :: ·)
    | '*' => (readPieces fuel rest).map (.many .inSegment :: ·)
    | '?' => (readPieces fuel rest).map (.one .inSegment :: ·)
    | '[' =>
      match readBracket rest with
      | none => .error .unclosedBracket
      | some (set, rest) => (readPieces fuel rest).map (.one set :: ·)
    | c => (readPieces fuel rest).map (.one (.just c) :: ·)

/-- The pieces of a path segment: a star stands for any characters but slashes, a question mark for
one, a bracket expression for one of its members, and a backslash takes the next character as it
is. -/
def parseGlob (segment : List Char) : Except GlobFault (List Piece) :=
  readPieces segment.length segment

/-- Whether a piece has a bracket expression with a range that runs backwards. -/
def Piece.hasReversedRange : Piece → Bool
  | .one (.bracket _ members) => members.any fun (low, high) => high < low
  | _ => false

end ResourceLiterals.Paths
