import LanguageHub.FileTree.Change

/-!
# Rotation of the log

A log that has grown to its greatest size is set aside under the number 1. The logs set aside
before move up by one number each, and the one with the greatest number goes.
-/

namespace LanguageHub.Log

/-- The size in bytes at which the program sets its log aside. -/
def greatestSize : Nat := 10 * 1024 * 1024

/-- How many logs the program keeps aside. -/
def keptFiles : Nat := 5

/-- Make the directory of a log. -/
def ensureDirectory (t : FileTree) (path : String) : Except FileFault Unit × FileTree :=
  match Path.parent? path with
  | none => (.ok (), t)
  | some above => t.createDirectories above

/-- The path of the log that is set aside under a number. -/
def numbered (path : String) (number : Nat) : String :=
  let name := (Path.fileName? path).getD ""
  Path.join ((Path.parent? path).getD ".") s!"{name}.{number}"

/-- Move the logs with the numbers up to `count` up by one, the greatest number first. -/
def shift (path : String) : (count : Nat) → FileTree → Except FileFault Unit × FileTree
  | 0, t => (.ok (), t)
  | n + 1, t =>
    if t.contains (numbered path (n + 1)) then
      match t.rename (numbered path (n + 1)) (numbered path (n + 2)) with
      | .ok t => shift path n t
      | .error fault => (.error fault, t)
    else shift path n t

/-- Remove the log with the greatest number. -/
def dropOldest (t : FileTree) (path : String) (kept : Nat) : Except FileFault FileTree :=
  if t.contains (numbered path kept) then t.removeFile (numbered path kept) else .ok t

/-- Set a log aside if it has at least `size` bytes, keeping `kept` logs aside. -/
def rotate (t : FileTree) (path : String) (size kept : Nat) : Except FileFault Unit × FileTree :=
  match t.sizeOf path with
  | .error _ => (.ok (), t)
  | .ok present =>
    if present < size then (.ok (), t)
    else
      match dropOldest t path kept with
      | .error fault => (.error fault, t)
      | .ok t =>
        match shift path (kept - 1) t with
        | (.error fault, t) => (.error fault, t)
        | (.ok (), t) =>
          match t.rename path (numbered path 1) with
          | .ok t => (.ok (), t)
          | .error fault => (.error fault, t)

end LanguageHub.Log
