/-!
# Paths

The parts of a path between its slashes, and the name and the extension of the file it leads to.
The cutting works on characters and on bytes alike.
-/

namespace LanguageHub.Path

/-- The parts of a path: the pieces between slashes without the empty ones and without those that
stand for the directory they are in. -/
def partsBy {α : Type} [DecidableEq α] (slash dot : α) (path : List α) : List (List α) :=
  (path.splitOn slash).filter fun p ↦ p ≠ [] ∧ p ≠ [dot]

/-- The parts of a path that is given as text. -/
def parts (path : String) : List String :=
  (partsBy '/' '.' path.toList).map String.ofList

/-- Whether a path begins at the root. -/
def isAbsolute (path : String) : Bool := path.toList.head? == some '/'

/-- The path that leads to `path` from the directory `base`; an absolute path stands for
itself. -/
def join (base path : String) : String :=
  if isAbsolute path then path
  else if base.toList.getLast? == some '/' || base.isEmpty then base ++ path
  else base ++ "/" ++ path

/-- The last part of a path, unless it leads up. -/
def fileName? (path : String) : Option String :=
  match (parts path).getLast? with
  | some name => if name = ".." then none else some name
  | none => none

/-- The pieces of a path without those at its end that are empty or stand for the directory they
are in. The first piece stays. -/
def trimPieces : List (List Char) → List (List Char)
  | [] => []
  | first :: rest => first :: (rest.reverse.dropWhile fun p ↦ p = [] ∨ p = ['.']).reverse

/-- The path whose pieces are given. -/
def ofPieces : List (List Char) → String
  | [[]] => "/"
  | ps => String.ofList (List.intercalate ['/'] ps)

/-- The path without its last part. The root and the empty path have none. -/
def parent? (path : String) : Option String :=
  match trimPieces (path.toList.splitOn '/') with
  | [] | [[]] => none
  | [_] => some ""
  | ps => some (ofPieces (trimPieces ps.dropLast))

/-- What stands behind the last dot of a file name, unless that dot begins the name. -/
def extensionOfName? (name : List Char) : Option (List Char) :=
  let after := name.reverse.takeWhile (· ≠ '.')
  if name.length ≤ after.length + 1 then none else some after.reverse

/-- The extension of the file that a path leads to. -/
def extension? (path : String) : Option String :=
  (fileName? path).bind fun name ↦ (extensionOfName? name.toList).map String.ofList

end LanguageHub.Path
