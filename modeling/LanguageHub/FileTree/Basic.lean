import LanguageHub.Path

/-!
# Trees of files

Directories and files by the names that lead to them. A path is followed from part to part as the
operating system follows it: each part but the last must name a directory, and two dots lead to
the directory above.
-/

namespace LanguageHub

/-- What is found in a tree of files. -/
inductive FileEntry where
  | directory
  | file (content : ByteArray) (isExecutable : Bool)

/-- Why an operation on files fails. -/
inductive FileFault where
  | notFound
  | permissionDenied
  | alreadyThere
  | notDirectory
  | isDirectory
  | nameTooLong
  | notEmpty
  /-- A path holds a character that no path can hold. -/
  | nulCharacter
  /-- A file that is read as text does not hold one. -/
  | notText
  deriving DecidableEq, Repr

/-- The wording of a fault. -/
def FileFault.message : FileFault → String
  | notFound => "No such file or directory (os error 2)"
  | permissionDenied => "Permission denied (os error 13)"
  | alreadyThere => "File exists (os error 17)"
  | notDirectory => "Not a directory (os error 20)"
  | isDirectory => "Is a directory (os error 21)"
  | nameTooLong => "File name too long (os error 36)"
  | notEmpty => "Directory not empty (os error 39)"
  | nulCharacter => "file name contained an unexpected NUL byte"
  | notText => "stream did not contain valid UTF-8"

/-- The names that lead from the root to an entry. -/
abbrev Location := List String

/-- A tree of files below a root directory. -/
structure FileTree where
  /-- The entries other than the root, each under its own location. -/
  entries : List (Location × FileEntry) := []
  /-- The directory in which relative paths begin. -/
  current : Location := []

namespace FileTree

/-- The entry at a location. -/
def get? (t : FileTree) (l : Location) : Option FileEntry :=
  if l = [] then some .directory else (t.entries.find? (·.1 = l)).map (·.2)

/-- Remove the entry at a location. -/
def erase (t : FileTree) (l : Location) : FileTree :=
  { t with entries := t.entries.filter (·.1 ≠ l) }

/-- Put an entry at a location in place of the one that was there. -/
def put (t : FileTree) (l : Location) (e : FileEntry) : FileTree :=
  { t with entries := (l, e) :: t.entries.filter (·.1 ≠ l) }

/-- Whether there is a directory at a location. -/
def hasDirectory (t : FileTree) (l : Location) : Bool :=
  match t.get? l with
  | some .directory => true
  | _ => false

/-- The greatest number of bytes in a name. -/
def longestName : Nat := 255

/-- The number of bytes from which on a path is too long. -/
def pathLimit : Nat := 4096

/-- Go from a location to the entry of a name below it, or up. -/
def enter (t : FileTree) (l : Location) (name : String) : Except FileFault Location :=
  match t.get? l with
  | none => .error .notFound
  | some (.file ..) => .error .notDirectory
  | some .directory =>
    if name = ".." then .ok l.dropLast
    else if longestName < name.utf8ByteSize then .error .nameTooLong
    else .ok (l ++ [name])

/-- The location to which a path leads, whether or not there is an entry. -/
def locate (t : FileTree) (path : String) : Except FileFault Location :=
  if path.toList.contains '\x00' then .error .nulCharacter
  else if path.isEmpty then .error .notFound
  else if pathLimit ≤ path.utf8ByteSize then .error .nameTooLong
  else (Path.parts path).foldlM t.enter (if Path.isAbsolute path then [] else t.current)

/-- Whether the end of a path says that it leads to a directory. -/
def asksDirectory (path : String) : Bool :=
  match (path.toList.splitOn '/').getLast? with
  | some piece => piece = [] || piece = ['.'] || piece = ['.', '.']
  | none => false

/-- Whether a path ends in a dot that stands for the directory it is in. Such a directory has to
be there already. -/
def endsInItself (path : String) : Bool := (path.toList.splitOn '/').getLast? == some ['.']

/-- The location and the entry to which a path leads. -/
def find (t : FileTree) (path : String) : Except FileFault (Location × FileEntry) := do
  let l ← t.locate path
  match t.get? l with
  | none => .error .notFound
  | some (.file content isExecutable) =>
    if asksDirectory path then .error .notDirectory else .ok (l, .file content isExecutable)
  | some .directory => .ok (l, .directory)

/-- Whether a path leads to an entry. -/
def contains (t : FileTree) (path : String) : Bool := (t.find path).isOk

/-- Whether a path leads to a file. -/
def isFile (t : FileTree) (path : String) : Bool :=
  match t.find path with
  | .ok (_, .file ..) => true
  | _ => false

/-- Whether a path leads to a directory. -/
def isDirectory (t : FileTree) (path : String) : Bool :=
  match t.find path with
  | .ok (_, .directory) => true
  | _ => false

/-- The bytes of the file to which a path leads. -/
def read (t : FileTree) (path : String) : Except FileFault ByteArray := do
  match ← t.find path with
  | (_, .file content _) => .ok content
  | (_, .directory) => .error .isDirectory

/-- The text in the file to which a path leads. -/
def readText (t : FileTree) (path : String) : Except FileFault String := do
  match String.fromUTF8? (← t.read path) with
  | some s => .ok s
  | none => .error .notText

/-- The size that a directory itself is said to have. -/
def directorySize : Nat := 4096

/-- The size of the entry to which a path leads. -/
def sizeOf (t : FileTree) (path : String) : Except FileFault Nat := do
  match ← t.find path with
  | (_, .file content _) => .ok content.size
  | (_, .directory) => .ok directorySize

end FileTree

end LanguageHub
