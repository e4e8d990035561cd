import LanguageHub.Dictionary
import LanguageHub.Duration
import LanguageHub.LogLevel

/-!
# Configuration

The settings of the log and of the language servers. The default values are the settings when
nothing is configured.
-/

namespace LanguageHub

/-- The settings of the log. -/
structure LogSettings where
  level : LogLevel := .info
  /-- Where the log is written, if not to the default file. -/
  file : Option String := none
  deriving DecidableEq, Repr

/-- How the server of one language is started. -/
structure ServerEntry where
  command : String
  args : List String := []
  /-- The file extensions that belong to the language, without a leading dot. -/
  extensions : List String := []
  deriving DecidableEq, Repr

/-- The program of a server followed by its arguments. -/
def ServerEntry.commandLine (e : ServerEntry) : List String := e.command :: e.args

/-- The settings of the language servers. -/
structure ServerSettings where
  /-- Whether language servers may be started at all. -/
  enabled : Bool := true
  /-- How many seconds a call may take; zero sets no limit. -/
  requestTimeoutSecs : UInt64 := 0
  /-- The configured servers by language id, as it was spelled. -/
  servers : Dictionary ServerEntry := .empty
  deriving DecidableEq, Repr

/-- How long a call may take, if there is a limit. -/
def ServerSettings.requestTimeout? (s : ServerSettings) : Option Duration :=
  if s.requestTimeoutSecs = 0 then none else some (.ofSeconds s.requestTimeoutSecs.toNat)

/-- A configuration. -/
structure Config where
  log : LogSettings := {}
  lsp : ServerSettings := {}
  deriving DecidableEq, Repr

end LanguageHub
