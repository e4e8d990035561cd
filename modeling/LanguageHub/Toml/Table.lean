import LanguageHub.Toml.Value

/-!
# Building tables

Statements fill tables one after the other. What a later statement may add to a table depends on
how the table came to be: a table that was written out is not written out again, and a dotted key
does not reach into it.
-/

namespace LanguageHub.Toml

/-- How a table came to be. -/
inductive Origin where
  /-- It was written out, by a header or in braces. -/
  | explicit
  /-- A header of a table inside it was seen. -/
  | header
  /-- A dotted key leads through it. -/
  | dotted
  deriving DecidableEq, Repr

/-- A part of a document that is being built. -/
inductive Item where
  | value (value : Toml)
  | table (origin : Origin) (entries : List (String × Item))
  /-- Tables that were written out one by one under the same header. -/
  | tables (elements : List (List (String × Item)))

/-- The entries of a table that is being built. -/
abbrev Entries := List (String × Item)

mutual

/-- The value of a part. -/
def Item.toToml : Item → Toml
  | .value v => v
  | .table _ entries => .table (entriesToToml entries)
  | .tables elements => .array (elementsToToml elements)

/-- The values of entries. -/
def entriesToToml : List (String × Item) → List (String × Toml)
  | [] => []
  | (key, item) :: rest => (key, item.toToml) :: entriesToToml rest

/-- The values of tables. -/
def elementsToToml : List (List (String × Item)) → List Toml
  | [] => []
  | entries :: rest => .table (entriesToToml entries) :: elementsToToml rest

end

/-- Change the table that a path leads to, making the tables on the way that are missing. The
change is told whether the table came to be by a dotted key. With `byKey` the path is part of a
dotted key, else of a header. -/
def changeAt (byKey : Bool) (change : (isDotted : Bool) → Entries → Option Entries) :
    List String → (isDotted : Bool) → Entries → Option Entries
  | [], isDotted, entries => change isDotted entries
  | key :: path, _, entries =>
    match Dictionary.lookup key entries with
    | none => do
      let origin := if byKey then Origin.dotted else .header
      let inner ← changeAt byKey change path byKey []
      return Dictionary.insertEntry key (.table origin inner) entries
    | some (.value _) => none
    | some (.tables elements) => do
      let last ← elements.getLast?
      let inner ← changeAt byKey change path false last
      return Dictionary.insertEntry key (.tables (elements.dropLast ++ [inner])) entries
    | some (.table origin inner) => do
      if byKey && origin = .explicit then none
      let inner ← changeAt byKey change path (origin = .dotted) inner
      return Dictionary.insertEntry key (.table origin inner) entries

/-- Enter a value under the last part of a key. A key of several parts ends in a table that came
to be by a dotted key. -/
def enter (viaTables : Bool) (key : String) (value : Toml) (isDotted : Bool) (entries : Entries) :
    Option Entries :=
  if isDotted != viaTables then none
  else
    match Dictionary.lookup key entries with
    | some _ => none
    | none => some (Dictionary.insertEntry key (.value value) entries)

/-- Enter a value under a key. -/
def assign (path : List String) (value : Toml) (entries : Entries) : Option Entries :=
  match path.getLast? with
  | none => none
  | some key =>
    let tables := path.dropLast
    changeAt true (enter (!tables.isEmpty) key value) tables false entries

/-- Write out a table under the last part of a header. -/
def openTable (key : String) (entries : Entries) : Option Entries :=
  match Dictionary.lookup key entries with
  | none => some (Dictionary.insertEntry key (.table .explicit []) entries)
  | some (.table .header inner) =>
    some (Dictionary.insertEntry key (.table .explicit inner) entries)
  | some _ => none

/-- Write out one more table under the last part of a header. -/
def openElement (key : String) (entries : Entries) : Option Entries :=
  match Dictionary.lookup key entries with
  | none => some (Dictionary.insertEntry key (.tables [[]]) entries)
  | some (.tables elements) =>
    some (Dictionary.insertEntry key (.tables (elements ++ [[]])) entries)
  | some _ => none

/-- Apply a change under the last part of a header. -/
def atHeader (change : String → Entries → Option Entries) (path : List String)
    (entries : Entries) : Option Entries :=
  match path.getLast? with
  | none => none
  | some key => changeAt false (fun _ es ↦ change key es) path.dropLast false entries

/-- A statement of a document. -/
inductive Statement where
  | assign (path : List String) (value : Toml)
  | openTable (path : List String)
  | openElement (path : List String)

/-- Carry statements out: the table that is open is the one at `current`. -/
def execute (current : List String) (entries : Entries) : List Statement → Option Entries
  | [] => some entries
  | .assign path value :: rest => do
    execute current (← changeAt false (fun _ es ↦ assign path value es) current false entries) rest
  | .openTable path :: rest => do execute path (← atHeader openTable path entries) rest
  | .openElement path :: rest => do execute path (← atHeader openElement path entries) rest

/-- The table with the given pairs of keys and values. -/
def tableOfPairs (pairs : List (List String × Toml)) : Option Toml := do
  let entries ← pairs.foldlM (fun es (path, value) ↦ assign path value es) []
  return .table (entriesToToml entries)

end LanguageHub.Toml
