/-!
# Why there is no configuration

The causes for which a configuration cannot be had, with the wording of each in one place.
-/

namespace LanguageHub

/-- Why a configuration could not be had. -/
inductive ConfigFault where
  /-- There is no file at a path that was named. -/
  | notFound (path : String)
  /-- The file with the defaults could not be written. -/
  | createDefault (path reason : String)
  /-- A text is not TOML, or its values do not have the types of the settings. -/
  | parse (origin reason : String)
  /-- A setting has the right type and yet cannot be used. -/
  | invalid (key reason : String)
  /-- A file or directory could not be accessed. -/
  | io (path reason : String)
  deriving DecidableEq, Repr

namespace ConfigFault

/-- The wording of a fault. -/
def message : ConfigFault → String
  | notFound path => s!"no config file at {path}"
  | createDefault path reason => s!"could not write default config {path}: {reason}"
  | parse origin reason => s!"invalid config in {origin}: {reason}"
  | invalid key reason => s!"invalid value for {key}: {reason}"
  | io path reason => s!"cannot access {path}: {reason}"

/-- Say that a text with a fault was read from the file at `path`. -/
def inFile (path : String) : ConfigFault → ConfigFault
  | parse _ reason => parse path reason
  | fault => fault

end ConfigFault

end LanguageHub
