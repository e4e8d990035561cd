import LanguageHub.Position

/-!
# Diagnostics

What a server finds in a document: errors, warnings and hints, each with the range it is about.
-/

namespace LanguageHub

/-- How serious a diagnostic is. -/
inductive Severity where
  | error
  | warning
  | information
  | hint
  deriving DecidableEq, Repr

namespace Severity

/-- The word for a severity in a report. -/
def word : Severity → String
  | error => "error"
  | warning => "warning"
  | information => "info"
  | hint => "hint"

/-- The number that stands for a severity in a message. -/
def code : Severity → UInt8
  | error => 1
  | warning => 2
  | information => 3
  | hint => 4

/-- The severity that a number stands for. -/
def ofCode? (n : UInt8) : Option Severity :=
  [error, warning, information, hint].find? (·.code == n)

/-- A severity as JSON. -/
def toJson (s : Severity) : Json := .ofInt s.code.toNat

/-- Read a severity. -/
def ofJson : Json.Decoder Severity := fun v ↦ do
  let n ← Json.unsigned8 v
  match ofCode? n with
  | some s => return s
  | none => .error (.unknownCode "diagnostic severity" n.toNat)

end Severity

/-- The code of a diagnostic, a number or a text. -/
inductive DiagnosticCode where
  | number (value : Int64)
  | text (value : String)
  deriving DecidableEq, Repr

namespace DiagnosticCode

/-- A code as JSON. -/
def toJson : DiagnosticCode → Json
  | number n => .ofInt n.toInt
  | text s => .text s

/-- Read a code. -/
def ofJson : Json.Decoder DiagnosticCode :=
  Json.firstOf "NumberOrString"
    [fun v ↦ (Json.signed64 v).map number, fun v ↦ (Json.string v).map text]

end DiagnosticCode

/-- One finding in a document. -/
structure Diagnostic where
  range : Range
  severity : Option Severity
  code : Option DiagnosticCode
  source : Option String
  message : String
  deriving DecidableEq, Repr

namespace Diagnostic

/-- A diagnostic as JSON; what is absent is not written. -/
def toJson (d : Diagnostic) : Json :=
  .object <|
    [("range", d.range.toJson)] ++
    Json.optional "severity" (d.severity.map Severity.toJson) ++
    Json.optional "code" (d.code.map DiagnosticCode.toJson) ++
    Json.optional "source" (d.source.map .text) ++
    [("message", .text d.message)]

/-- The fields of a diagnostic as they are read. -/
structure Draft where
  range : Option Range := none
  severity : Option Severity := none
  code : Option DiagnosticCode := none
  source : Option String := none
  message : Option String := none

/-- How the fields of a diagnostic are read. -/
def record : Json.Record Draft where
  name := "Diagnostic"
  fields :=
    [("range", false), ("severity", true), ("code", true), ("source", true), ("message", false)]
  take name v d :=
    match name with
    | "range" => return { d with range := some (← Range.ofJson v) }
    | "severity" => return { d with severity := ← Json.nullable Severity.ofJson v }
    | "code" => return { d with code := ← Json.nullable DiagnosticCode.ofJson v }
    | "source" => return { d with source := ← Json.nullable Json.string v }
    | _ => return { d with message := some (← Json.string v) }

/-- Read a diagnostic. -/
def ofJson : Json.Decoder Diagnostic := fun v ↦ do
  let d ← record.read {} v
  return {
    range := ← Json.required "range" d.range
    severity := d.severity
    code := d.code
    source := d.source
    message := ← Json.required "message" d.message }

end Diagnostic

end LanguageHub
