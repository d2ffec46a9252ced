/-!
# Reflash.Log — diagnostic records

A record has a level and a text.  The terminal shows the records of a threshold and above, except informational
ones that only echo a line of the session log, which the commands show themselves.
-/

namespace Reflash

/-- How important a record is. -/
inductive LogLevel where
  | error
  | warn
  | info
  | debug
  | trace
  deriving DecidableEq

namespace LogLevel

def name : LogLevel → String
  | .error => "ERROR"
  | .warn => "WARN"
  | .info => "INFO"
  | .debug => "DEBUG"
  | .trace => "TRACE"

/-- Zero for the most important level. -/
def rank : LogLevel → Nat
  | .error => 0
  | .warn => 1
  | .info => 2
  | .debug => 3
  | .trace => 4

end LogLevel

/-- One diagnostic record. -/
structure LogRecord where
  level : LogLevel
  text : String
  /-- The record repeats a line of the session log. -/
  echo : Bool := false
  deriving DecidableEq

namespace LogRecord

/-- Whether the terminal shows the record at a threshold. -/
def isShown (r : LogRecord) (threshold : LogLevel) : Bool :=
  r.level.rank ≤ threshold.rank && !(r.echo && r.level = .info)

/-- The line on the terminal. -/
def line (r : LogRecord) : String := "[" ++ r.level.name ++ "] " ++ r.text

end LogRecord

end Reflash
