import LanguageHub.Json.Fault
import LanguageHub.Json.Value

/-!
# Reading records from JSON values

A record is read from an object, whose members it takes by name, or from an array, whose elements
it takes in the order of its fields. The members of an object are visited in the order of their
names, so that the first mismatch in this order is reported.
-/

namespace LanguageHub.Json

/-- Makes something of a value, or says why it cannot. -/
abbrev Decoder (α : Type) := Json → Except Mismatch α

/-- What a value is, for a report. -/
def found : Json → Found
  | .null => .null
  | .bool b => .bool b
  | .number (.integer n) => .integer n
  | .number (.float x) => .float x
  | .text s => .text s
  | .array _ => .sequence
  | .object _ => .map

/-- Refuse a value of the wrong kind. -/
def wrongKind {α : Type} (expected : String) (v : Json) : Except Mismatch α :=
  .error (.kind v.found expected)

/-- Accept any value. -/
def anyValue : Decoder Json := .ok

/-- A text. -/
def string : Decoder String
  | .text s => .ok s
  | v => wrongKind "a string" v

/-- A truth value. -/
def boolean : Decoder Bool
  | .bool b => .ok b
  | v => wrongKind "a boolean" v

/-- An integer from `least` to `greatest`. -/
def integer (least greatest : Int) (expected : String) : Decoder Int
  | .number (.integer n) =>
    if least ≤ n ∧ n ≤ greatest then .ok n else .error (.value (.integer n) expected)
  | v => wrongKind expected v

/-- An unsigned 8-bit integer. -/
def unsigned8 : Decoder UInt8 := fun v ↦ (integer 0 0xFF "u8" v).map UInt8.ofInt

/-- An unsigned 32-bit integer. -/
def unsigned32 : Decoder UInt32 := fun v ↦ (integer 0 0xFFFFFFFF "u32" v).map UInt32.ofInt

/-- A signed 32-bit integer. -/
def signed32 : Decoder Int32 := fun v ↦
  (integer (-0x80000000) 0x7FFFFFFF "i32" v).map Int32.ofInt

/-- A signed 64-bit integer. -/
def signed64 : Decoder Int64 := fun v ↦
  (integer (-0x8000000000000000) 0x7FFFFFFFFFFFFFFF "i64" v).map Int64.ofInt

/-- Absent when null. -/
def nullable {α : Type} (decode : Decoder α) : Decoder (Option α)
  | .null => .ok none
  | v => (decode v).map some

/-- A list whose elements are all accepted by `decode`. -/
def list {α : Type} (decode : Decoder α) : Decoder (List α)
  | .array items => items.mapM decode
  | v => wrongKind "a sequence" v

/-- How a record is read: `take` puts the value of a field into a partly read record, `fields`
names the fields in the order of an array. -/
structure Record (σ : Type) where
  /-- The name of the record. -/
  name : String
  /-- The names of the fields, each with whether it may be missing from an array. -/
  fields : List (String × Bool)
  /-- Take the value of a field. -/
  take : String → Json → σ → Except Mismatch σ

namespace Record

variable {σ : Type}

/-- Take the members of an object. A member that is no field is passed over. -/
def takeMembers (r : Record σ) : List (String × Json) → σ → Except Mismatch σ
  | [], s => .ok s
  | (name, value) :: rest, s => do
    if r.fields.any (·.1 == name) then
      let t ← r.take name value s
      r.takeMembers rest t
    else r.takeMembers rest s

/-- Take the elements of an array for the fields in order; `count` elements were taken before.
Gives the record and the elements that are left. -/
def takeElements (r : Record σ) :
    (count : Nat) → List (String × Bool) → List Json → σ → Except Mismatch (σ × List Json)
  | _, [], items, s => .ok (s, items)
  | count, (name, _) :: fields, item :: items, s => do
    let t ← r.take name item s
    r.takeElements (count + 1) fields items t
  | count, (_, true) :: fields, [], s => r.takeElements (count + 1) fields [] s
  | count, (_, false) :: _, [], _ =>
    let plural := if r.fields.length = 1 then "" else "s"
    .error (.length count s!"struct {r.name} with {r.fields.length} element{plural}")

/-- Read a record, starting from `start`. -/
def read (r : Record σ) (start : σ) : Decoder σ
  | .object members => r.takeMembers members start
  | .array items => do
    let (s, left) ← r.takeElements 0 r.fields items start
    if left.isEmpty then return s
    else .error (.length items.length "fewer elements in array")
  | v => wrongKind s!"struct {r.name}" v

end Record

/-- The value of a field that must be there. -/
def required {α : Type} (name : String) : Option α → Except Mismatch α
  | some a => .ok a
  | none => .error (.missing name)

/-- The first alternative that accepts the value. -/
def firstOf {α : Type} (choice : String) (alternatives : List (Decoder α)) (v : Json) :
    Except Mismatch α :=
  match alternatives.findSome? fun decode ↦ (decode v).toOption with
  | some a => .ok a
  | none => .error (.noAlternative choice)

end LanguageHub.Json
