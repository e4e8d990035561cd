/-!
# Log levels

How important an entry of the log is.
-/

namespace LanguageHub

/-- The importance of a log entry. -/
inductive LogLevel where
  | trace
  | debug
  | info
  | warn
  | error
  deriving DecidableEq, Repr

namespace LogLevel

/-- The levels, the least important first. -/
def all : List LogLevel := [trace, debug, info, warn, error]

/-- The name of a level. -/
def name : LogLevel → String
  | trace => "trace"
  | debug => "debug"
  | info => "info"
  | warn => "warn"
  | error => "error"

/-- The level with the given name. -/
def ofName? (s : String) : Option LogLevel := all.find? (·.name == s)

end LogLevel

end LanguageHub
