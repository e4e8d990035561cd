import LanguageHub.Config.Files
import LanguageHub.Log.Rotation
import LanguageHub.Program.CommandLine
import LanguageHub.Program.Inspection
import LanguageHub.Program.Places

/-!
# Running the program

What the program prints and leaves behind for its arguments, the files around it and the servers
that it starts.
-/

namespace LanguageHub.Program

/-- Where the program runs. -/
structure Surroundings where
  home : Home
  /-- The directory in which the program runs. -/
  directory : String
  files : FileTree

/-- What comes of a run. -/
structure Result where
  status : Nat := 0
  output : String := ""
  errors : String := ""
  files : FileTree

/-- A message on the standard error stream, behind the name of the program. -/
def remark (reason : String) : String := s!"{programName}: {reason}\n"

/-- A run that fails. -/
def failed (files : FileTree) (errors reason : String) : Result :=
  { status := 1, errors := errors ++ remark reason, files }

/-- The wording of a fault with its cause behind it. -/
def withCause (fault : ConfigFault) : String :=
  match fault with
  | .io _ reason => s!"{fault.message}: {reason}"
  | _ => fault.message

/-- The configuration of a run. One that is named has to be there; without a name, the defaults
stand in for a configuration that cannot be had. -/
def configure (s : Surroundings) (named : Option String) : Except String Config × FileTree :=
  match named with
  | some path =>
    ((Config.loadFile s.files path).mapError fun fault ↦
      s!"failed to load {path}: {withCause fault}", s.files)
  | none =>
    let (loaded, files) := Config.load s.files s.home.configDir (some s.directory)
    (.ok (loaded.toOption.getD {}), files)

/-- Make the log ready at a path. Gives what is remarked on, which is all that a failed rotation
leads to, and the reason if the log cannot be opened. -/
def openLog (files : FileTree) (path : String) : String × Option String × FileTree :=
  match Log.ensureDirectory files path with
  | (.error fault, files) =>
    ("", some s!"failed to create log directory for {path}: {fault.message}", files)
  | (.ok (), files) =>
    let (rotated, files) := Log.rotate files path Log.greatestSize Log.keptFiles
    let remarks := match rotated with
      | .ok () => ""
      | .error fault => remark s!"log rotation failed: {fault.message}"
    match files.append path .empty with
    | .ok files => (remarks, none, files)
    | .error fault => (remarks, some s!"failed to open log file {path}: {fault.message}", files)

/-- Ask the servers about a file and then stop them. -/
def inspect (s : Surroundings) (c : Config) (files : FileTree) (errors file : String)
    (ask : HostedManager → (path text : String) → Printout × HostedManager) : Result :=
  let path := Path.join s.directory file
  match readSource c files path with
  | .error reason => failed files errors reason
  | .ok text =>
    let hosted : HostedManager :=
      { session := { manager := managerOf c s.directory }, host := { files } }
    let (printout, hosted) := ask hosted path text
    let (_, hosted) := perform hosted .ending .shutdown
    let errors := errors ++ Shell.textOf hosted.host.console
    match printout with
    | .ok output => { output, errors, files := hosted.host.files }
    | .error reason => failed hosted.host.files errors reason

/-- Carry out a command under a configuration. -/
def carryOut (s : Surroundings) (c : Config) (files : FileTree) (errors : String) :
    Command → Result
  | .help => { output := CommandLine.usage, errors, files }
  | .servers => { output := c.commandTable.listing, errors, files }
  | .check file language wait =>
    inspect s c files errors file fun h path text ↦ check h language path text (.ofMillis wait)
  | .complete file language line column =>
    inspect s c files errors file fun h path text ↦
      complete h language path text ⟨.ofNat line, .ofNat column⟩

/-- Run the program with a command line. -/
def runCommandLine (s : Surroundings) (l : CommandLine) : Result :=
  if l.command = .help then { output := CommandLine.usage, files := s.files }
  else
    match configure s l.config with
    | (.error reason, files) => failed files "" reason
    | (.ok c, files) =>
      if l.logToStderr then carryOut s c files "" l.command
      else
        match openLog files (c.log.file.getD s.home.defaultLogFile) with
        | (remarks, none, files) => carryOut s c files remarks l.command
        | (remarks, some reason, files) => failed files remarks reason

/-- Run the program with its arguments. -/
def run (s : Surroundings) (arguments : List String) : Result :=
  match CommandLine.parse arguments with
  | .ok l => runCommandLine s l
  | .error fault => failed s.files "" fault.message

end LanguageHub.Program
