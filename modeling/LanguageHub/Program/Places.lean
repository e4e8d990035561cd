import LanguageHub.Path

/-!
# The places of the program's files

Where the configuration and the log of a user are kept, below the user's home directory.
-/

namespace LanguageHub.Program

/-- The name of the program, under which it also keeps its files. -/
def programName : String := "polyglot"

/-- The directory of a user. -/
structure Home where
  path : String
  deriving DecidableEq, Repr

namespace Home

/-- The path of `names` below the home directory. -/
def below (h : Home) (names : List String) : String := names.foldl Path.join h.path

/-- The directory of the user's configuration. -/
def configDir (h : Home) : String := h.below [".config", programName]

/-- The directory of the program's data. -/
def dataDir (h : Home) : String := h.below [".local", "share", programName]

/-- The directory of the log. -/
def logDir (h : Home) : String := Path.join h.dataDir "logs"

/-- The log file when the configuration names none. -/
def defaultLogFile (h : Home) : String := Path.join h.logDir (programName ++ ".log")

end Home

end LanguageHub.Program
