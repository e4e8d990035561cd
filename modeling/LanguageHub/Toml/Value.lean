import LanguageHub.Dictionary

/-!
# TOML values

A TOML document is a table. The entries of a table stand in the order of their keys.
-/

namespace LanguageHub

namespace Toml

/-- A day of the calendar. -/
structure Date where
  year : Nat
  month : Nat
  day : Nat
  deriving DecidableEq, Repr

/-- A time of day. -/
structure Time where
  hour : Nat
  minute : Nat
  second : Nat
  nanosecond : Nat
  deriving DecidableEq, Repr

/-- How far a time is from universal time. -/
inductive Offset where
  | zulu
  | minutes (count : Int)
  deriving DecidableEq, Repr

/-- A day, a time of day, or both, then perhaps with an offset. -/
structure DateTime where
  date : Option Date
  time : Option Time
  offset : Option Offset
  deriving DecidableEq, Repr

/-- A number in at least `width` digits. -/
def padded (width n : Nat) : String :=
  let digits := Nat.toDigits 10 n
  String.ofList (List.replicate (width - digits.length) '0' ++ digits)

/-- The text of a day. -/
def Date.render (d : Date) : String := s!"{padded 4 d.year}-{padded 2 d.month}-{padded 2 d.day}"

/-- The text of a time of day. The fraction of the second has no zeros at its end. -/
def Time.render (t : Time) : String :=
  let fraction := ((padded 9 t.nanosecond).toList.reverse.dropWhile (· == '0')).reverse
  let seconds := s!"{padded 2 t.hour}:{padded 2 t.minute}:{padded 2 t.second}"
  if fraction.isEmpty then seconds else s!"{seconds}.{String.ofList fraction}"

/-- The text of an offset. -/
def Offset.render : Offset → String
  | zulu => "Z"
  | minutes n =>
    let sign := if n < 0 then "-" else "+"
    s!"{sign}{padded 2 (n.natAbs / 60)}:{padded 2 (n.natAbs % 60)}"

/-- The text of a day and time. -/
def DateTime.render (d : DateTime) : String :=
  let date := (d.date.map Date.render).getD ""
  let mark := if d.date.isSome && d.time.isSome then "T" else ""
  date ++ mark ++ (d.time.map Time.render).getD "" ++ (d.offset.map Offset.render).getD ""

end Toml

/-- A TOML value. -/
inductive Toml where
  | text (value : String)
  | integer (value : Int)
  | float (value : Float)
  | boolean (value : Bool)
  | dateTime (value : Toml.DateTime)
  | array (items : List Toml)
  | table (entries : List (String × Toml))

namespace Toml

instance : Inhabited Toml := ⟨.table []⟩

mutual

/-- Lay a value over another: tables are joined entry by entry, any other value takes the place
of the one below. -/
def merge (below : Toml) : Toml → Toml
  | .table entries =>
    match below with
    | .table old => .table (mergeEntries old entries)
    | _ => .table entries
  | .text s => .text s
  | .integer n => .integer n
  | .float x => .float x
  | .boolean b => .boolean b
  | .dateTime d => .dateTime d
  | .array items => .array items

/-- Lay entries over others. -/
def mergeEntries (below : List (String × Toml)) : List (String × Toml) → List (String × Toml)
  | [] => below
  | (key, value) :: rest =>
    let merged :=
      match Dictionary.lookup key below with
      | some old => merge old value
      | none => value
    mergeEntries (Dictionary.insertEntry key merged below) rest

end

end Toml

end LanguageHub
