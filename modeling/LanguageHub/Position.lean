import LanguageHub.Json.Decode

/-!
# Positions in a document

Lines and characters count from zero; a range includes its start and not its end.
-/

namespace LanguageHub

/-- A place in a document. -/
structure Position where
  line : UInt32
  character : UInt32
  deriving DecidableEq, Repr

namespace Position

/-- A position as JSON. -/
def toJson (p : Position) : Json :=
  .object [("line", .ofInt p.line.toNat), ("character", .ofInt p.character.toNat)]

/-- The fields of a position as they are read. -/
structure Draft where
  line : Option UInt32 := none
  character : Option UInt32 := none

/-- How the fields of a position are read. -/
def record : Json.Record Draft where
  name := "Position"
  fields := [("line", false), ("character", false)]
  take name v d :=
    match name with
    | "line" => return { d with line := some (← Json.unsigned32 v) }
    | _ => return { d with character := some (← Json.unsigned32 v) }

/-- Read a position. -/
def ofJson : Json.Decoder Position := fun v ↦ do
  let d ← record.read {} v
  return ⟨← Json.required "line" d.line, ← Json.required "character" d.character⟩

end Position

/-- A stretch of a document. -/
structure Range where
  start : Position
  stop : Position
  deriving DecidableEq, Repr

namespace Range

/-- A range as JSON. -/
def toJson (r : Range) : Json := .object [("start", r.start.toJson), ("end", r.stop.toJson)]

/-- The fields of a range as they are read. -/
structure Draft where
  start : Option Position := none
  stop : Option Position := none

/-- How the fields of a range are read. -/
def record : Json.Record Draft where
  name := "Range"
  fields := [("start", false), ("end", false)]
  take name v d :=
    match name with
    | "start" => return { d with start := some (← Position.ofJson v) }
    | _ => return { d with stop := some (← Position.ofJson v) }

/-- Read a range. -/
def ofJson : Json.Decoder Range := fun v ↦ do
  let d ← record.read {} v
  return ⟨← Json.required "start" d.start, ← Json.required "end" d.stop⟩

end Range

end LanguageHub
