import LanguageHub.Json.Skip

/-!
# Reading records straight from text

A record is read while its text is scanned, without building a value first. In contrast to a
record that is read from a value, a member that occurs twice is refused, unknown members are
only passed over, and the first fault in the order of the text is reported.
-/

namespace LanguageHub.Json

/-- Refuse what stands here because it is of the wrong kind. A scalar is read in full, so that a
fault in it is reported instead. -/
def wrongKindHere {α : Type} (expected : String) (cs : List Char) : Except Fault α := do
  let refuse (f : Found) : Except Fault α := .error (.mismatch (.kind f expected))
  match skipSpace cs with
  | [] => failSyntax .endInValue
  | c :: rest =>
    if c = 'n' then
      let _ ← scanName ['u', 'l', 'l'] rest
      refuse .null
    else if c = 't' then
      let _ ← scanName ['r', 'u', 'e'] rest
      refuse (.bool true)
    else if c = 'f' then
      let _ ← scanName ['a', 'l', 's', 'e'] rest
      refuse (.bool false)
    else if c = '-' then
      let (n, _) ← scanNumber true rest
      refuse (match n with | .integer i => .integer i | .float x => .float x)
    else if c.isDigit then
      let (n, _) ← scanNumber false (c :: rest)
      refuse (match n with | .integer i => .integer i | .float x => .float x)
    else if c = '"' then
      let (s, _) ← scanString rest
      refuse (.text s)
    else if c = '[' then refuse .sequence
    else if c = '\x7b' then refuse .map
    else failSyntax .expectedValue

/-- Read a text. -/
def readString : Reader String := fun cs ↦
  match skipSpace cs with
  | '"' :: rest => scanString rest
  | other => wrongKindHere "a string" other

/-- Read a signed 64-bit integer. -/
def readInt64 : Reader Int64 := fun cs ↦ do
  let accept (n : Number) (rest : List Char) : Except Fault (Int64 × List Char) :=
    match n with
    | .integer i =>
      if -0x8000000000000000 ≤ i ∧ i < 0x8000000000000000 then .ok (.ofInt i, rest)
      else .error (.mismatch (.value (.integer i) "i64"))
    | .float x => .error (.mismatch (.kind (.float x) "i64"))
  match skipSpace cs with
  | [] => failSyntax .endInValue
  | c :: rest =>
    if c = '-' then
      let (n, after) ← scanNumber true rest
      accept n after
    else if c.isDigit then
      let (n, after) ← scanNumber false (c :: rest)
      accept n after
    else wrongKindHere "i64" (c :: rest)

/-- Read null, or what `reader` reads. -/
def readNullable {α : Type} (reader : Reader α) : Reader (Option α) := fun cs ↦
  match skipSpace cs with
  | 'n' :: rest => (scanName ['u', 'l', 'l'] rest).map fun (_, r) ↦ (none, r)
  | other => (reader other).map fun (a, r) ↦ (some a, r)

/-- How a record is read from text: `take` reads the value of a field into a partly read
record, `fields` names the fields in the order of an array, each with whether it may be missing
there. -/
structure TextRecord (σ : Type) where
  name : String
  fields : List (String × Bool)
  take : String → σ → Reader σ

namespace TextRecord

variable {σ : Type}

/-- Read the colon and the value behind a member's name. `seen` holds the fields read so far. -/
def readMember (r : TextRecord σ) (name : String) : List String × σ → Reader (List String × σ)
  | (seen, s), cs =>
    if r.fields.any (·.1 == name) then
      if seen.contains name then .error (.mismatch (.duplicate name))
      else do
        let (t, rest) ← r.take name s (← readColon cs)
        return ((name :: seen, t), rest)
    else do
      let (_, rest) ← skipValue (← readColon cs)
      return ((seen, s), rest)

/-- Read what stands behind the last element that a record takes from an array. -/
def readArrayEnd (cs : List Char) : Except Fault (List Char) :=
  match skipSpace cs with
  | [] => failSyntax .endInList
  | c :: rest =>
    if c = ']' then .ok rest
    else if c = ',' then
      match skipSpace rest with
      | ']' :: _ => failSyntax .trailingComma
      | _ => failSyntax .trailingCharacters
    else failSyntax .trailingCharacters

/-- Read the elements of an array for the fields in order. -/
def readElements (r : TextRecord σ) : (count : Nat) → List (String × Bool) → σ → Reader σ
  | _, [], s, cs => (readArrayEnd cs).map fun rest ↦ (s, rest)
  | count, (name, optional) :: fields, s, cs => do
    let (more, rest) ← nextItem (count == 0) cs
    if more then
      let (t, after) ← r.take name s rest
      r.readElements (count + 1) fields t after
    else
      if optional && fields.all (·.2) then return (s, rest)
      else
        let missing := count + (((name, optional) :: fields).takeWhile (·.2)).length
        .error (.mismatch
          (.length missing s!"struct {r.name} with {r.fields.length} elements"))

/-- Read a record, starting from `start`; `finish` requires the fields that must be there. -/
def read {α : Type} (r : TextRecord σ) (start : σ) (finish : σ → Except Mismatch α) :
    Reader α := fun cs ↦ do
  let complete (s : σ) (rest : List Char) : Except Fault (α × List Char) :=
    match finish s with
    | .ok a => .ok (a, rest)
    | .error m => .error (.mismatch m)
  match skipSpace cs with
  | [] => failSyntax .endInValue
  | c :: rest =>
    if c = '\x7b' then
      let ((_, s), after) ← readMembers r.readMember (rest.length + 1) true ([], start) rest
      complete s after
    else if c = '[' then
      let (s, after) ← r.readElements 0 r.fields start rest
      complete s after
    else wrongKindHere s!"struct {r.name}" (c :: rest)

end TextRecord

end LanguageHub.Json
