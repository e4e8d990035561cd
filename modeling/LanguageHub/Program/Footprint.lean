import LanguageHub.Program.Run

/-!
# The files of a run

Which files a run may look at, so that they can be gathered before it, and which files it has
changed, so that they can be written after it.
-/

namespace LanguageHub.Program

/-- The configuration file of the project in a directory. -/
def projectFile (directory : String) : String :=
  Path.join (Path.join directory Config.projectDirectory) Config.fileName

/-- The file that a command is about. -/
def sourceOf? : Command → Option String
  | .check file .. => some file
  | .complete file .. => some file
  | .servers | .help => none

/-- The files that a command line leads to, the log apart. -/
def footprint (h : Home) (directory : String) (l : CommandLine) : List String :=
  let configuration := match l.config with
    | some path => [path]
    | none =>
      Path.join h.configDir Config.fileName ::
        (Config.ancestors directory.length directory).map projectFile
  (configuration ++ (sourceOf? l.command).toList).map (Path.join directory)

/-- The log of a run and the logs that were set aside. -/
def logFiles (s : Surroundings) (l : CommandLine) : List String :=
  match (configure s l.config).1 with
  | .error _ => []
  | .ok c =>
    let path := Path.join s.directory (c.log.file.getD s.home.defaultLogFile)
    path :: (List.range Log.keptFiles).map fun i ↦ Log.numbered path (i + 1)

/-- The path of a location. -/
def pathOf (l : Location) : String := "/" ++ "/".intercalate l

/-- A tree with a file at a path, and the directories above it. -/
def withFile (t : FileTree) (path : String) (content : ByteArray) : FileTree :=
  let t := (Log.ensureDirectory t path).2
  (t.write path content).toOption.getD t

/-- A tree in which a run takes place: the directory of the user and the one it runs in are
there. -/
def baseTree (h : Home) (directory : String) : FileTree :=
  let t := ((({} : FileTree).createDirectories h.path).2.createDirectories directory).2
  { t with current := Path.parts directory }

/-- The files of the second tree that the first one does not have with the same content. -/
def changedFiles (before after : FileTree) : List (String × ByteArray) :=
  after.entries.filterMap fun (l, e) ↦
    match e, before.get? l with
    | .directory, _ => none
    | .file content _, some (.file old _) =>
      if content.data = old.data then none else some (pathOf l, content)
    | .file content _, _ => some (pathOf l, content)

/-- The files of the first tree that the second one does not have. -/
def removedFiles (before after : FileTree) : List String :=
  before.entries.filterMap fun (l, e) ↦
    match e, after.get? l with
    | .file .., none => some (pathOf l)
    | _, _ => none

end LanguageHub.Program
