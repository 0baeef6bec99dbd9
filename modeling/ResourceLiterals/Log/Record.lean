/-!
# Log records

What an operation reports while it runs: a list of records in the order in which they arise, each
with a severity and a finished message.  Severities are compared by their numeric level.
-/

namespace ResourceLiterals.Log

inductive Severity where
  | trace
  | debug
  | info
  | warning
  | error
deriving DecidableEq, Repr

/-- The numeric level of a severity; a higher level matters more. -/
def Severity.level : Severity → Int
  | .trace => 5
  | .debug => 10
  | .info => 20
  | .warning => 30
  | .error => 40

def Severity.name : Severity → String
  | .trace => "TRACE"
  | .debug => "DEBUG"
  | .info => "INFO"
  | .warning => "WARNING"
  | .error => "ERROR"

/-- One report: how much it matters and what it says. -/
structure Record where
  severity : Severity
  message : String
deriving DecidableEq, Repr

/-- The records that a reader who asks for `threshold` and above gets to see. -/
def Record.atLeast (threshold : Int) (records : List Record) : List Record :=
  records.filter (threshold ≤ ·.severity.level)

end ResourceLiterals.Log
