import ResourceLiterals.Text.Numeral
import ResourceLiterals.Text.Quoted

/-!
# The level from which records are shown

The level can be given in the environment, by name or as a number.  The root logger shows records
from its level on through the handlers that it has; setting it up leaves exactly one.

* `environmentLevel` reads the text in the environment.
* `RootLogger.setUp` sets a level, the one in the environment if none is given.
-/

namespace ResourceLiterals.Log

/-- The level of records that are about to end the program. -/
def criticalLevel : Int := 50
/-- The level from which records are shown without the place in the source. -/
def infoLevel : Int := 20

def namedLevels : List (String × Int) :=
  [("TRACE", 5), ("DEBUG", 10), ("INFO", 20), ("WARNING", 30), ("WARN", 30), ("ERROR", 40),
    ("CRITICAL", criticalLevel), ("FATAL", criticalLevel), ("NOTSET", 0)]

/-- The upper-case letter of a character, for the letters that occur in names of levels. -/
def upper (c : Char) : Char :=
  if c = 'ı' then 'I' else if c = 'ſ' then 'S' else c.toUpper

/-- A text of digits that is no number. -/
inductive LevelError where
  /-- Some of the digits are not decimal. -/
  | notDecimal (text : List Char)
  /-- There are so many digits, more than are converted. -/
  | tooLong (digits : Nat)
deriving DecidableEq, Repr

def shownLength : Nat := 200

def LevelError.message : LevelError → String
  | .notDecimal text =>
    "invalid literal for int() with base 10: " ++
      String.ofList ((Text.quotedChars text).take shownLength)
  | .tooLong digits => Text.tooLongMessage digits

/-- Reads a text of digits of any kind.  The digits up to the first one that is not decimal must not
be too many, and in the end there must be no such one. -/
def readLevelNumber (text : List Char) : Except LevelError Int :=
  let decimals := text.takeWhile fun c => (Text.decimalValue? c).isSome
  if decimals.length > Text.digitLimit then .error (.tooLong decimals.length)
  else if decimals.length < text.length then .error (.notDecimal text)
  else .ok (Text.placeValue 10 (decimals.filterMap Text.decimalValue?))

/-- The level that a text in the environment stands for, if it stands for any.  Blanks around it and
the case of its letters do not matter. -/
def environmentLevel (text : Option String) : Except LevelError (Option Int) :=
  match text with
  | none => .ok none
  | some text =>
    if text = "" then
      .ok none
    else
      let chars := (Text.strip text.toList).map upper
      if !chars.isEmpty && chars.all Text.isDigit then
        (readLevelNumber chars).map some
      else
        .ok (namedLevels.lookup (String.ofList chars))

/-! ## The root logger -/

/-- How much of a record is shown. -/
inductive LineFormat where
  | plain
  | withPlace
deriving DecidableEq, Repr

/-- A line format with the fields in it. -/
def LineFormat.template : LineFormat → String
  | .plain => "[%(levelname)s] %(message)s"
  | .withPlace => "[%(levelname)s] [%(filename)s:%(lineno)d] [%(funcName)s] %(message)s"

/-- The logger that all others report to. -/
structure RootLogger where
  level : Int
  handlers : List LineFormat
  propagate : Bool
deriving DecidableEq, Repr

namespace RootLogger

def initial : RootLogger := ⟨30, [], true⟩

def formatFor (level : Int) : LineFormat :=
  if infoLevel ≤ level then .plain else .withPlace

/-- Takes a handler with this format away, the first one if there are several. -/
def removeHandler (logger : RootLogger) (handler : LineFormat) : RootLogger :=
  { logger with handlers := logger.handlers.erase handler }

def addHandler (logger : RootLogger) (handler : LineFormat) : RootLogger :=
  { logger with handlers := logger.handlers ++ [handler] }

/-- Shows records from a level on, through one handler that takes the place of all others. -/
def showFrom (level : Int) (logger : RootLogger) : RootLogger :=
  let cleared := logger.handlers.foldl removeHandler { logger with level }
  { cleared.addHandler (formatFor level) with propagate := false }

/-- The level that holds when none is given: the one in the environment unless it is zero, or the
one of critical records. -/
def fallbackLevel (environment : Option String) : Except LevelError Int :=
  (environmentLevel environment).map fun level =>
    (level.filter (· ≠ 0)).getD criticalLevel

/-- Sets the logger up for a level, or for the one that holds when none is given. -/
def setUp (level : Option Int) (environment : Option String) (logger : RootLogger) :
    Except LevelError RootLogger :=
  match level with
  | some level => .ok (logger.showFrom level)
  | none => (fallbackLevel environment).map logger.showFrom

/-- Sets the logger up several times in the same way. -/
def setUpTimes (level : Option Int) (environment : Option String) :
    (count : Nat) → RootLogger → Except LevelError RootLogger
  | 0, logger => .ok logger
  | count + 1, logger => do setUpTimes level environment count (← logger.setUp level environment)

end RootLogger

end ResourceLiterals.Log
