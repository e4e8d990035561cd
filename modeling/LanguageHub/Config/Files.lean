import LanguageHub.Config.Layers
import LanguageHub.FileTree.Change
import LanguageHub.Text.Lines

/-!
# Configuration in files

The configuration of a user is laid over the defaults, and that of the project over both. Loading
changes the files in `prepare` alone, which makes a file of remarks when the user has none.
-/

namespace LanguageHub

/-- The content of a new configuration file: remarks that show the defaults. -/
def defaultContent : String := "# polyglot configuration
# Uncomment and edit settings below to override defaults.

# [log]
# level = \"info\"
# file = \"/path/to/polyglot.log\"

# [lsp]
# enabled = true
# request_timeout_secs = 0   # 0 waits forever

# [lsp.servers.python]
# command = \"pyright-langserver\"
# args = [\"--stdio\"]
# extensions = [\"py\", \"pyi\"]
"

namespace Config

/-- The name of a configuration file. -/
def fileName : String := "config.toml"

/-- The directory of a project that holds its configuration file. -/
def projectDirectory : String := ".polyglot"

/-- Whether a line holds more than blanks and a remark. -/
def isSubstantial (line : List Char) : Bool :=
  match Text.trimList line with
  | [] | '#' :: _ => false
  | _ => true

/-- Whether a text holds more than blanks and remarks. -/
def hasContent (document : String) : Bool := (Text.lines document.toList).any isSubstantial

/-- The text of a configuration file. -/
def readFile (t : FileTree) (path : String) : Except ConfigFault String :=
  (t.readText path).mapError fun fault ↦ .io path fault.message

/-- Lay the settings of a file over a configuration. -/
def overlayFile (below : Config) (path document : String) : Except ConfigFault Config :=
  (below.overlay document).mapError (.inFile path)

/-- The paths of `above` many directories upwards from a path, itself first. -/
def ancestors : (above : Nat) → (path : String) → List String
  | 0, path => [path]
  | n + 1, path =>
    match Path.parent? path with
    | none => [path]
    | some p => path :: ancestors n p

/-- The configuration file of the project around a path: that of the closest directory which has
one. -/
def findProject? (t : FileTree) (start : String) : Option String :=
  let files := (ancestors start.length start).map fun directory ↦
    Path.join (Path.join directory projectDirectory) fileName
  files.find? t.isFile

/-- Make the directory and the file of a user's configuration if they are missing. -/
def prepare (t : FileTree) (directory : String) : Except ConfigFault Unit × FileTree :=
  let path := Path.join directory fileName
  let made :=
    if t.contains directory then (.ok (), t) else t.createDirectories directory
  match made with
  | (.error fault, t) => (.error (.io directory fault.message), t)
  | (.ok (), t) =>
    if t.contains path then (.ok (), t)
    else
      match t.write path defaultContent.toUTF8 with
      | .ok t => (.ok (), t)
      | .error fault => (.error (.createDefault path fault.message), t)

/-- Read the configuration of a user and that of the project around `project?`. -/
def readLayers (t : FileTree) (directory : String) (project? : Option String) :
    Except ConfigFault Config := do
  let path := Path.join directory fileName
  let document ← readFile t path
  let user ← if hasContent document then overlayFile {} path document else .ok {}
  match project?.bind (findProject? t) with
  | none => user.validated
  | some projectPath =>
    let whole ← overlayFile user projectPath (← readFile t projectPath)
    whole.validated

/-- Load the configuration of a user and that of the project around `project?`. -/
def load (t : FileTree) (directory : String) (project? : Option String) :
    Except ConfigFault Config × FileTree :=
  match prepare t directory with
  | (.error fault, t) => (.error fault, t)
  | (.ok (), t) => (readLayers t directory project?, t)

/-- Load the configuration in one file that was named. -/
def loadFile (t : FileTree) (path : String) : Except ConfigFault Config := do
  if !t.isFile path then .error (.notFound path)
  else
    let c ← overlayFile {} path (← readFile t path)
    c.validated

end Config

end LanguageHub
