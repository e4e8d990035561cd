import LanguageHub.Program.Footprint

/-!
# The program

Gathers the files that a run may look at, runs the program on them, writes what it has changed and
prints what it says. A file that cannot be read counts as missing.
-/

namespace LanguageHub.Program

/-- Put files of the machine into a tree. -/
def gather (t : FileTree) (paths : List String) : IO FileTree :=
  paths.foldlM (fun t (path : String) ↦
    try
      return withFile t path (← IO.FS.readBinFile path)
    catch _ => return t) t

/-- Write what a run has changed. -/
def writeBack (before after : FileTree) : IO Unit := do
  for path in removedFiles before after do
    IO.FS.removeFile path
  for (path, content) in changedFiles before after do
    IO.FS.createDirAll ((Path.parent? path).getD "/")
    IO.FS.writeBinFile path content

/-- Run the program on the files of the machine. -/
def runHere (home : Home) (directory : String) (arguments : List String) : IO UInt32 := do
  let base := baseTree home directory
  let before ← match CommandLine.parse arguments with
    | .error _ => pure base
    | .ok l =>
      let t ← gather base (footprint home directory l)
      gather t (logFiles ⟨home, directory, t⟩ l)
  let result := run ⟨home, directory, before⟩ arguments
  writeBack before result.files
  (← IO.getStdout).putStr result.output
  (← IO.getStderr).putStr result.errors
  return result.status.toUInt32

end LanguageHub.Program

/-- Run the program with the arguments of the command line. -/
def main (arguments : List String) : IO UInt32 := do
  let home := (← IO.getEnv "HOME").getD "/"
  let directory := (← IO.getEnv "PWD").getD "/"
  LanguageHub.Program.runHere ⟨home⟩ directory arguments
