import LanguageHub.Dictionary

/-!
# JSON values

A number without fraction and exponent whose value fits a signed or an unsigned 64-bit word is an
integer; every other number is a floating-point number. The members of an object stand in the
order in which they are written: `Json.ofMembers` sorts them by name and lets the last of several
members with one name stand, a record of the protocol lists its members in the order of its
declaration.
-/

namespace LanguageHub

/-- A JSON number. -/
inductive Json.Number where
  | integer (value : Int)
  | float (value : Float)

/-- A JSON value. -/
inductive Json where
  | null
  | bool (value : Bool)
  | number (value : Json.Number)
  | text (value : String)
  | array (items : List Json)
  | object (members : List (String × Json))

namespace Json

instance : Inhabited Json := ⟨.null⟩

/-- The integer `n` as a value. -/
def ofInt (n : Int) : Json := .number (.integer n)

/-- The object with the given members, sorted by name; of several members with one name the
last stands. -/
def ofMembers (members : List (String × Json)) : Json :=
  .object (members.foldl (fun sorted (name, value) ↦ Dictionary.insertEntry name value sorted) [])

mutual

/-- The value with the members of every object sorted by name. -/
def sorted : Json → Json
  | .null => .null
  | .bool b => .bool b
  | .number n => .number n
  | .text s => .text s
  | .array items => .array (sortedItems items)
  | .object members => .object (sortedMembers members)

/-- Each item sorted. -/
def sortedItems : List Json → List Json
  | [] => []
  | item :: items => item.sorted :: sortedItems items

/-- The members sorted by name, each value sorted. -/
def sortedMembers : List (String × Json) → List (String × Json)
  | [] => []
  | (name, value) :: rest => Dictionary.insertEntry name value.sorted (sortedMembers rest)

end

/-- A member that is written only when it has a value. -/
def optional (name : String) : Option Json → List (String × Json)
  | none => []
  | some value => [(name, value)]

/-- The integer in the range of a signed 64-bit word that the value is, if it is one. -/
def int64? : Json → Option Int
  | .number (.integer n) =>
    if -0x8000000000000000 ≤ n ∧ n < 0x8000000000000000 then some n else none
  | _ => none

end Json

end LanguageHub
