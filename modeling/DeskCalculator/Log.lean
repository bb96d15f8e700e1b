/-
# The log

Records of four levels. Those of the lowest are kept only while debugging is on.
-/

namespace DeskCalculator
namespace Log

/-- How much a record matters. -/
inductive Level where
  | debug
  | info
  | warning
  | error
  deriving DecidableEq

/-- The name of a level. -/
def Level.name : Level → String
  | .debug => "DEBUG"
  | .info => "INFO"
  | .warning => "WARNING"
  | .error => "ERROR"

/-- A line of the log. -/
structure Record where
  level : Level
  message : String
  deriving DecidableEq

/-- A record as a line. -/
def Record.shown (r : Record) : String := "[CALC] [" ++ r.level.name ++ "] " ++ r.message

/-- The records that are kept: without debugging, all but those of the lowest level. -/
def kept (debug : Bool) (records : List Record) : List Record :=
  if debug then records else records.filter (·.level != .debug)

end Log
end DeskCalculator
