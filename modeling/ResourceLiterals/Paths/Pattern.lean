import ResourceLiterals.Paths.Glob
import ResourceLiterals.Paths.Reader
import ResourceLiterals.Text.Blank
import ResourceLiterals.Text.Quoted
import ResourceLiterals.Text.Split

/-!
# Path patterns

A pattern selects paths in the manner of ignore files.  A list of patterns makes up a `PathFilter`,
in which the last pattern that matches a path decides about it: a plain one selects the path, one
that starts with an exclamation mark does not.

* `Rule` is a pattern that has been read; comments and the like leave no rule.
* `parseRule` reads a pattern, `PathFilter.parse` a list of them.
* `PathFilter.selects` decides about a path.

The two functions are the `PatternReader` of this library.
-/

namespace ResourceLiterals.Paths

/-- Why a pattern is refused. -/
inductive PatternError where
  /-- It makes no sense. -/
  | invalid (pattern : String)
  /-- It has a bracket expression with a range that runs backwards. -/
  | reversedRange
deriving DecidableEq, Repr

def invalidMessage (pattern : String) : String :=
  "Invalid git pattern: " ++ Text.quoted pattern

/-- Which paths a pattern matches. -/
inductive Matcher where
  /-- Those with a character that is no line feed. -/
  | anything
  /-- Those with a slash. -/
  | anyFolder
  /-- Those that the pieces can take up from the start. -/
  | fromStart (pieces : List Piece)
deriving DecidableEq, Repr

def Matcher.matches (path : List Char) : Matcher → Bool
  | .anything => path.any (· != '\n')
  | .anyFolder => path.contains '/'
  | .fromStart pieces => takeUp pieces path

structure Rule where
  /-- Whether the paths that it matches are selected. -/
  selecting : Bool
  matcher : Matcher
deriving DecidableEq, Repr

/-! ## Segments -/

/-- The segment that stands for any number of folders. -/
def anyFolders : List Char := ['*', '*']

/-- The segments of a pattern.  A pattern of one segment applies in all folders, and one that ends
with a slash to what is inside. -/
def segments (pattern : List Char) : List (List Char) :=
  let parts := Text.splitWhere (· == '/') pattern
  let parts :=
    match parts with
    | [] :: rest => rest
    | [only] => if only = anyFolders then [only] else [anyFolders, only]
    | [only, []] => if only = anyFolders then [only, []] else [anyFolders, only, []]
    | _ => parts
  if parts.getLast? = some [] then parts.dropLast ++ [anyFolders] else parts

/-- Leaves out repetitions of the segment for any folders. -/
def mergeFolders : List (List Char) → List (List Char)
  | [] => []
  | segment :: rest =>
    if segment = anyFolders ∧ rest.head? = some anyFolders then mergeFolders rest
    else segment :: mergeFolders rest

/-- The pieces of an ordinary segment.  A star alone stands for at least one character. -/
def segmentPieces (segment : List Char) : Except GlobFault (List Piece) :=
  if segment = ['*'] then .ok [.one .inSegment, .many .inSegment] else parseGlob segment

/-- The pieces of the segments after the first one.  `slash` tells whether a slash has to come
before the next ordinary segment. -/
def laterPieces (slash : Bool) : List (List Char) → Except GlobFault (List Piece)
  | [] => .ok [.boundary]
  | segment :: rest =>
    if segment = anyFolders then
      if rest.isEmpty then .ok [.one (.just '/')]
      else (laterPieces true rest).map (.innerFolders :: ·)
    else do
      let pieces ← segmentPieces segment
      let more ← laterPieces true rest
      return (if slash then [.one (.just '/')] else []) ++ pieces ++ more

def pathPieces : List (List Char) → Except GlobFault (List Piece)
  | [] => .ok [.boundary]
  | segment :: rest =>
    if segment = anyFolders then (laterPieces false rest).map (.leadingFolders :: ·)
    else laterPieces false (segment :: rest)

/-! ## Patterns -/

/-- A pattern without the blanks at its end, unless the last one is escaped. -/
def trimEnd (pattern : List Char) : List Char :=
  if [' ', '\\'].isPrefixOf pattern.reverse then pattern
  else Text.dropEndWhile Text.isBlank pattern

/-- The matcher for a list of segments, of a pattern that ends with a slash or not. -/
def matcherOf (forFolders : Bool) (parts : List (List Char)) : Except GlobFault Matcher :=
  if parts = [anyFolders] then
    .ok (if forFolders then .anyFolder else .anything)
  else if parts = [anyFolders, ['*']] then
    .ok .anything
  else if parts = [anyFolders, ['*'], anyFolders] then
    .ok .anyFolder
  else
    (pathPieces parts).map .fromStart

/-- Whether a matcher has a bracket expression with a range that runs backwards. -/
def Matcher.hasReversedRange : Matcher → Bool
  | .fromStart pieces => pieces.any Piece.hasReversedRange
  | _ => false

/-- Reads a pattern.  Empty ones, comments, a lone slash and those with an unclosed bracket leave
no rule. -/
def parseRule (pattern : String) : Except PatternError (Option Rule) :=
  let trimmed := trimEnd pattern.toList
  if trimmed.isEmpty || trimmed.head? = some '#' || trimmed = ['/'] then
    .ok none
  else
    let selecting := trimmed.head? ≠ some '!'
    let body := if selecting then trimmed else trimmed.drop 1
    let parts := mergeFolders (segments body)
    if parts.isEmpty then
      .error (.invalid pattern)
    else
      match matcherOf (body.getLast? = some '/') parts with
      | .error .danglingBackslash => .error (.invalid pattern)
      | .error .unclosedBracket => .ok none
      | .ok matcher =>
        if matcher.hasReversedRange then .error .reversedRange
        else .ok (some ⟨selecting, matcher⟩)

structure PathFilter where
  rules : List Rule
deriving DecidableEq, Repr

namespace PathFilter

def parse (patterns : List String) : Except PatternError PathFilter := do
  let rules ← patterns.mapM parseRule
  return ⟨rules.filterMap id⟩

/-- A path without the slash, or the dot and slash, that it may start with. -/
def relative : List Char → List Char
  | '/' :: rest => rest
  | '.' :: '/' :: rest => rest
  | path => path

/-- Whether the last rule that matches the path selects it. -/
def selects (filter : PathFilter) (path : String) : Bool :=
  match filter.rules.reverse.find? (·.matcher.matches (relative path.toList)) with
  | some rule => rule.selecting
  | none => false

end PathFilter

instance : PatternReader where
  Filter := PathFilter
  Refusal := PatternError
  read := PathFilter.parse
  selects := PathFilter.selects

end ResourceLiterals.Paths
