import LanguageHub.FileTree.Basic

/-!
# Changes to a tree of files

Writing, making, removing and renaming. An operation that fails leaves the tree as it was;
`createDirectories` alone may have made some of the directories before it fails.
-/

namespace LanguageHub.FileTree

/-- The location at which a path may put a file, with the content of the file that is there. -/
def fileSlot (t : FileTree) (path : String) :
    Except FileFault (Location × Option (ByteArray × Bool)) := do
  let l ← t.locate path
  match t.get? l with
  | some (.file content isExecutable) =>
    if asksDirectory path then .error .notDirectory
    else .ok (l, some (content, isExecutable))
  | some .directory => .error .isDirectory
  | none =>
    if endsInItself path then .error .notFound
    else if asksDirectory path then .error .isDirectory
    else if t.hasDirectory l.dropLast then .ok (l, none)
    else
      match t.get? l.dropLast with
      | some _ => .error .notDirectory
      | none => .error .notFound

/-- Write a file in place of the one at a path. -/
def write (t : FileTree) (path : String) (content : ByteArray) : Except FileFault FileTree := do
  let (l, old) ← t.fileSlot path
  return t.put l (.file content ((old.map (·.2)).getD false))

/-- Write at the end of the file at a path, which is made if it is missing. -/
def append (t : FileTree) (path : String) (content : ByteArray) : Except FileFault FileTree := do
  let (l, old) ← t.fileSlot path
  match old with
  | some (before, isExecutable) => return t.put l (.file (before ++ content) isExecutable)
  | none => return t.put l (.file content false)

/-- Make a directory. -/
def createDirectory (t : FileTree) (path : String) : Except FileFault FileTree := do
  let l ← t.locate path
  match t.get? l with
  | some _ => .error .alreadyThere
  | none =>
    if t.hasDirectory l.dropLast && !endsInItself path then .ok (t.put l .directory)
    else .error .notFound

/-- Make a directory unless there is one. -/
def ensureDirectory (t : FileTree) (path : String) : Except FileFault FileTree :=
  match t.createDirectory path with
  | .ok t => .ok t
  | .error fault => if t.isDirectory path then .ok t else .error fault

/-- Make a directory and those above it that are missing, `levels` at most. -/
def createDirectoriesUpTo : (levels : Nat) → FileTree → (path : String) →
    Except FileFault Unit × FileTree
  | 0, t, _ => (.error .notFound, t)
  | levels + 1, t, path =>
    if path.isEmpty then (.ok (), t)
    else
      match t.ensureDirectory path with
      | .ok t => (.ok (), t)
      | .error .notFound =>
        match Path.parent? path with
        | none => (.error .notFound, t)
        | some above =>
          match createDirectoriesUpTo levels t above with
          | (.error fault, t) => (.error fault, t)
          | (.ok (), t) =>
            match t.ensureDirectory path with
            | .ok t => (.ok (), t)
            | .error fault => (.error fault, t)
      | .error fault => (.error fault, t)

/-- Make a directory and those above it that are missing. -/
def createDirectories (t : FileTree) (path : String) : Except FileFault Unit × FileTree :=
  t.createDirectoriesUpTo (path.length + 1) path

/-- Remove the file at a path. -/
def removeFile (t : FileTree) (path : String) : Except FileFault FileTree := do
  match ← t.find path with
  | (l, .file ..) => .ok (t.erase l)
  | (_, .directory) => .error .isDirectory

/-- Whether a directory has no entries. -/
def isEmptyDirectory (t : FileTree) (l : Location) : Bool :=
  t.entries.all fun (k, _) ↦ !(l.isPrefixOf k && k ≠ l)

/-- Move the entry at a location, with all that is below it, to another location. -/
def move (t : FileTree) (source target : Location) : FileTree :=
  let stays := (t.erase target).entries.filter fun (k, _) ↦ !source.isPrefixOf k
  let moves := t.entries.filter fun (k, _) ↦ source.isPrefixOf k
  { t with entries := moves.map (fun (k, e) ↦ (target ++ k.drop source.length, e)) ++ stays }

/-- Give the entry at one path another path. A file takes the place of a file and a directory
that of an empty directory. -/
def rename (t : FileTree) (source target : String) : Except FileFault FileTree := do
  let (s, e) ← t.find source
  let l ← t.locate target
  if s = l then return t
  match e, t.get? l with
  | _, none =>
    if t.hasDirectory l.dropLast then return t.move s l else .error .notFound
  | .file .., some (.file ..) => return t.move s l
  | .file .., some .directory => .error .isDirectory
  | .directory, some (.file ..) => .error .notDirectory
  | .directory, some .directory =>
    if t.isEmptyDirectory l then return t.move s l else .error .notEmpty

end LanguageHub.FileTree
