import ResourceLiterals.Log.Threshold

/-!
# Coloured log lines

A log line is coloured by its level with terminal codes.  Codes that a message already holds are
taken up, so that the colour goes on after them, and it is switched off around line breaks.

* `Style` is a list of pairs of codes, `Style.apply` colours a text.
* `lineText` is the text of a record, `styleFor` its colour.
-/

namespace ResourceLiterals.Log

/-! ## Terminal codes -/

/-- The character that starts a terminal code. -/
def escape : Char := '\x1b'

def code (number : Nat) : List Char :=
  escape :: '[' :: (toString number).toList ++ ['m']

/-- A pair of codes, of which the second one ends what the first one starts. -/
structure CodePair where
  on : List Char
  off : List Char
deriving DecidableEq, Repr

/-- A colour or another way of showing a text. -/
abbrev Style := List CodePair

def codePair (on off : Nat) : CodePair := ⟨code on, code off⟩

/-- The style for a level. -/
def styleFor (level : Int) : Style :=
  if 50 ≤ level then [codePair 91 39]
  else if 40 ≤ level then [codePair 31 39]
  else if 30 ≤ level then [codePair 33 39]
  else if 20 ≤ level then [codePair 32 39]
  else if 10 ≤ level then [codePair 90 39]
  else if 5 ≤ level then [codePair 34 39]
  else [codePair 2 22, codePair 31 39]

/-! ## Replacing -/

/-- Replaces a part wherever it occurs, from left to right; `skip` characters still belong to the
last occurrence. -/
def replaceFrom (part replacement : List Char) : (skip : Nat) → List Char → List Char
  | _, [] => []
  | skip + 1, _ :: rest => replaceFrom part replacement skip rest
  | 0, c :: rest =>
    if part.isPrefixOf (c :: rest) then
      replacement ++ replaceFrom part replacement (part.length - 1) rest
    else
      c :: replaceFrom part replacement 0 rest

/-- Replaces a part that is not empty wherever it occurs. -/
def replaceAll (part replacement text : List Char) : List Char :=
  replaceFrom part replacement 0 text

def reset : List Char := code 0

/-- How many characters there are up to the end of the next `reset` on the same line. -/
def lengthToReset : List Char → Option Nat
  | [] => none
  | c :: rest =>
    if reset.isPrefixOf (c :: rest) then some reset.length
    else if c = '\n' then none
    else (lengthToReset rest).map (· + 1)

/-- Puts `before` and `after` around what stands between two resets on a line, these included;
`inside` characters still belong to the last such stretch. -/
def aroundResets (before after : List Char) : (inside : Nat) → List Char → List Char
  | _, [] => []
  | 1, c :: rest => c :: after ++ aroundResets before after 0 rest
  | inside + 2, c :: rest => c :: aroundResets before after (inside + 1) rest
  | 0, c :: rest =>
    if reset.isPrefixOf (c :: rest) then
      match lengthToReset ((c :: rest).drop reset.length) with
      | some length =>
        before ++ c :: aroundResets before after (reset.length + length - 1) rest
      | none => c :: aroundResets before after 0 rest
    else
      c :: aroundResets before after 0 rest

/-- Puts `before` and `after` around line breaks. -/
def aroundLineBreaks (before after : List Char) : List Char → List Char
  | [] => []
  | '\r' :: '\n' :: rest => before ++ '\r' :: '\n' :: after ++ aroundLineBreaks before after rest
  | '\n' :: rest => before ++ '\n' :: after ++ aroundLineBreaks before after rest
  | c :: rest => c :: aroundLineBreaks before after rest

/-! ## Styles -/

namespace Style

def on (style : Style) : List Char := style.flatMap CodePair.on

/-- The codes that end a style, in the order in which it was started. -/
def off (style : Style) : List Char := style.flatMap CodePair.off

/-- Starts the codes of a style again wherever the text ends them. -/
def resume (style : Style) (text : List Char) : List Char :=
  if text.contains escape then
    style.foldl (fun text pair => replaceAll pair.off (pair.off ++ pair.on) text) text
  else
    text

def apply (style : Style) (text : List Char) : List Char :=
  let text := aroundResets style.off style.on 0 (style.resume text)
  style.on ++ aroundLineBreaks style.off style.on text ++ style.off

end Style

/-! ## Lines -/

def levelName (level : Int) : String :=
  if level = 50 then "CRITICAL"
  else if level = 40 then "ERROR"
  else if level = 30 then "WARNING"
  else if level = 20 then "INFO"
  else if level = 10 then "DEBUG"
  else if level = 5 then "TRACE"
  else if level = 0 then "NOTSET"
  else s!"Level {level}"

/-- Where in the source a record was made. -/
structure Place where
  file : String
  line : Nat
  function : String
deriving DecidableEq, Repr

def lineText (format : LineFormat) (place : Place) (level : Int) (message : String) : String :=
  let shown := "[" ++ levelName level ++ "] "
  match format with
  | .plain => shown ++ message
  | .withPlace =>
    shown ++ s!"[{place.file}:{place.line}] " ++ "[" ++ place.function ++ "] " ++ message

/-- The text of a record in the colour of its level. -/
def colouredLine (format : LineFormat) (place : Place) (level : Int) (message : String) : String :=
  String.ofList ((styleFor level).apply (lineText format place level message).toList)

end ResourceLiterals.Log
