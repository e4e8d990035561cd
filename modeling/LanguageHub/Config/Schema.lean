import LanguageHub.Config.Basic
import LanguageHub.Decimal.Layout
import LanguageHub.Text.Quoted
import LanguageHub.Toml.Value

/-!
# The types of the settings

Reading settings from TOML values. A group of settings is a table, of which unknown entries count
for nothing, or an array of the settings in their order, of which settings at the end that have a
default may be left out. A value that does not fit is a `SchemaFault`: what is wrong and
where.
-/

namespace LanguageHub

/-- What is wrong with a value. -/
inductive SchemaCause where
  /-- A value of another type. -/
  | wrongType (found expected : String)
  /-- A whole number outside the range of the setting. -/
  | wrongValue (found : Int) (expected : String)
  /-- A setting without a default is not there. -/
  | missing (setting : String)
  /-- An array has too few or too many elements. -/
  | wrongLength (length : Nat) (expected : String)
  /-- A text names no log level. -/
  | unknownLevel (name : String)
  /-- A table stands for a log level and does not have just one entry. -/
  | notOneLevel (isEmpty : Bool)
  /-- A log level goes with a value that is not empty. -/
  | notEmpty (expected : String) (found : Option String)
  /-- A whole number is greater than any in TOML. -/
  | unwritable
  deriving DecidableEq, Repr

/-- What is wrong with a value, and the keys that lead to it. -/
structure SchemaFault where
  path : List String
  cause : SchemaCause
  deriving DecidableEq, Repr

namespace SchemaCause

/-- The wording of a cause. -/
def message : SchemaCause → String
  | wrongType found expected => s!"invalid type: {found}, expected {expected}"
  | wrongValue found expected => s!"invalid value: integer `{found}`, expected {expected}"
  | missing setting => s!"missing field `{setting}`"
  | wrongLength length expected => s!"invalid length {length}, expected {expected}"
  | unknownLevel name =>
    let known := ", ".intercalate (LogLevel.all.map fun l ↦ s!"`{l.name}`")
    s!"unknown variant `{name}`, expected one of {known}"
  | notOneLevel isEmpty =>
    "wanted exactly 1 element, " ++ if isEmpty then "found 0 elements" else "more than 1 element"
  | notEmpty expected found =>
    s!"expected {expected}" ++ (found.map (", found " ++ ·)).getD ""
  | unwritable => "out-of-range value for u64 type"

end SchemaCause

namespace SchemaFault

/-- The wording of a fault. -/
def message (f : SchemaFault) : String :=
  match f.path with
  | [] => f.cause.message
  | keys =>
    let place := ".".intercalate keys
    s!"{f.cause.message}\nin `{place}`\n"

end SchemaFault

/-- Reads a setting from a value. -/
abbrev Schema (α : Type) := Toml → Except SchemaFault α

namespace Toml

/-- What messages say about a number with a fraction. -/
def describeFloat (x : Float) : String :=
  if x.isNaN then "NaN"
  else if x.isInf then (if x < 0 then "-inf" else "inf")
  else String.ofList (Decimal.Layout.positional.writeBits x.toBits.toNat)

/-- What messages say about a value; a day or time shows as its text. -/
def describe : Toml → String
  | .text s => s!"string {Text.quoted s}"
  | .integer n => s!"integer `{n}`"
  | .float x => s!"floating point `{describeFloat x}`"
  | .boolean b => s!"boolean `{b}`"
  | .dateTime d => s!"string {Text.quoted d.render}"
  | .array _ => "sequence"
  | .table _ => "map"

/-- The name of the type of a value. -/
def typeName : Toml → String
  | .text _ => "string"
  | .integer _ => "integer"
  | .float _ => "float"
  | .boolean _ => "boolean"
  | .dateTime _ => "datetime"
  | .array _ => "array"
  | .table _ => "table"

end Toml

namespace Schema

/-- A fault at the value itself. -/
def fail {α : Type} (cause : SchemaCause) : Except SchemaFault α := .error ⟨[], cause⟩

/-- The value has another type. -/
def wrongType {α : Type} (expected : String) (v : Toml) : Except SchemaFault α :=
  fail (.wrongType v.describe expected)

/-- Read what lies under a key. -/
def under {α : Type} (key : String) (read : Schema α) (v : Toml) : Except SchemaFault α :=
  (read v).mapError fun f ↦ ⟨key :: f.path, f.cause⟩

/-- Read the entry of a table under a key, if there is one. -/
def entry? {α : Type} (key : String) (read : Schema α) (entries : List (String × Toml)) :
    Except SchemaFault (Option α) :=
  match Dictionary.lookup key entries with
  | none => .ok none
  | some v => (under key read v).map some

/-- Read the element of an array at an index, if there is one. -/
def element? {α : Type} (index : Nat) (read : Schema α) (items : List Toml) :
    Except SchemaFault (Option α) :=
  match items[index]? with
  | none => .ok none
  | some v => (read v).map some

/-- A text; a day or time counts as its text. -/
def text (expected : String) : Schema String
  | .text s => .ok s
  | .dateTime d => .ok d.render
  | v => wrongType expected v

/-- A truth value. -/
def boolean : Schema Bool
  | .boolean b => .ok b
  | v => wrongType "a boolean" v

/-- A whole number that is not negative. -/
def natural : Schema UInt64
  | .integer n =>
    if 0 ≤ n ∧ n < UInt64.size then .ok (.ofNat n.toNat) else fail (.wrongValue n "u64")
  | v => wrongType "u64" v

/-- A list of texts. -/
def texts : Schema (List String)
  | .array items => items.mapM (text "a string")
  | v => wrongType "a sequence" v

/-- The log level with a name. -/
def levelOfName (name : String) : Except SchemaFault LogLevel :=
  match LogLevel.ofName? name with
  | some level => .ok level
  | none => fail (.unknownLevel name)

/-- What goes with a log level that is the key of a table: nothing. -/
def nothing : Schema Unit
  | .table [] => .ok ()
  | .array [] => .ok ()
  | .table _ => fail (.notEmpty "empty table" none)
  | .array _ => fail (.notEmpty "empty array" none)
  | v => fail (.notEmpty "table" (some v.typeName))

/-- A log level: its name, or a table in which an empty value stands under its name. -/
def level : Schema LogLevel
  | .text s => levelOfName s
  | .table [(name, v)] => do
    let l ← levelOfName name
    nothing v
    return l
  | .table entries => fail (.notOneLevel entries.isEmpty)
  | _ => fail (.wrongType "unit variant" "string only")

/-- Refuse elements behind those that were read, if arrays have to be exact. -/
def finish {α : Type} (isExact : Bool) (count : Nat) (items : List Toml) (a : α) :
    Except SchemaFault α :=
  if isExact ∧ count < items.length then
    fail (.wrongLength items.length "fewer elements in array")
  else .ok a

/-- The settings of the log. -/
def log (isExact : Bool) : Schema LogSettings
  | .table entries => do
    let file ← entry? "file" (text "path string") entries
    let level ← entry? "level" level entries
    return { level := level.getD .info, file := file }
  | .array items => do
    let level ← element? 0 level items
    let some file ← element? 1 (text "path string") items
      | fail (.wrongLength 1 "struct LogConfig with 2 elements")
    finish isExact 2 items { level := level.getD .info, file := some file }
  | v => wrongType "struct LogConfig" v

/-- The entry of a server. -/
def server (isExact : Bool) : Schema ServerEntry
  | .table entries => do
    let args ← entry? "args" texts entries
    let command ← entry? "command" (text "a string") entries
    let extensions ← entry? "extensions" texts entries
    let some command := command | fail (.missing "command")
    return ⟨command, args.getD [], extensions.getD []⟩
  | .array items => do
    let some command ← element? 0 (text "a string") items
      | fail (.wrongLength 0 "struct LspServerEntry with 3 elements")
    let args ← element? 1 texts items
    let extensions ← element? 2 texts items
    finish isExact 3 items ⟨command, args.getD [], extensions.getD []⟩
  | v => wrongType "struct LspServerEntry" v

/-- The entries of servers by language. -/
def servers (isExact : Bool) : Schema (Dictionary ServerEntry)
  | .table entries => do
    let read ← entries.mapM fun (language, v) ↦
      (under language (server isExact) v).map fun e ↦ (language, e)
    return ⟨read⟩
  | v => wrongType "a map" v

/-- The settings of the language servers. -/
def lsp (isExact : Bool) : Schema ServerSettings
  | .table entries => do
    let enabled ← entry? "enabled" boolean entries
    let seconds ← entry? "request_timeout_secs" natural entries
    let servers ← entry? "servers" (servers isExact) entries
    return ⟨enabled.getD true, seconds.getD 0, servers.getD .empty⟩
  | .array items => do
    let enabled ← element? 0 boolean items
    let seconds ← element? 1 natural items
    let servers ← element? 2 (servers isExact) items
    finish isExact 3 items ⟨enabled.getD true, seconds.getD 0, servers.getD .empty⟩
  | v => wrongType "struct LspConfig" v

/-- A whole configuration. With `isExact` no array may have more elements than there are
settings. -/
def config (isExact : Bool) : Schema Config
  | .table entries => do
    let log ← entry? "log" (log isExact) entries
    let lsp ← entry? "lsp" (lsp isExact) entries
    return ⟨log.getD {}, lsp.getD {}⟩
  | v => wrongType "struct Config" v

end Schema

end LanguageHub
