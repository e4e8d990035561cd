import LanguageHub.Config.Fault
import LanguageHub.Config.Schema
import LanguageHub.Config.Validation
import LanguageHub.Toml.Parser

/-!
# Layers of configuration

A configuration is laid over another one entry by entry: a setting of the upper layer takes the
place of the one below, and the settings that the upper layer does not mention stay.
-/

namespace LanguageHub

namespace Toml

mutual

/-- A value in which a table with one entry of no meaning stands for each day or time. -/
def withoutDates : Toml → Toml
  | .text s => .text s
  | .integer n => .integer n
  | .float x => .float x
  | .boolean b => .boolean b
  | .dateTime d => .table [("", .text d.render)]
  | .array items => .array (itemsWithoutDates items)
  | .table entries => .table (entriesWithoutDates entries)

/-- The same for the items of an array. -/
def itemsWithoutDates : List Toml → List Toml
  | [] => []
  | v :: rest => v.withoutDates :: itemsWithoutDates rest

/-- The same for the entries of a table. -/
def entriesWithoutDates : List (String × Toml) → List (String × Toml)
  | [] => []
  | (key, v) :: rest => (key, v.withoutDates) :: entriesWithoutDates rest

end

end Toml

namespace ServerEntry

/-- The entry of a server as TOML. -/
def toToml (e : ServerEntry) : Toml := .table [
  ("args", .array (e.args.map .text)),
  ("command", .text e.command),
  ("extensions", .array (e.extensions.map .text))]

end ServerEntry

namespace Config

/-- What a text is called that does not come from a file. -/
def inlineOrigin : String := "inline TOML"

/-- What is said about a text that is not TOML. -/
def syntaxReason : String := "TOML parse error"

/-- Read a text as TOML. -/
def parse (document : String) : Except ConfigFault Toml :=
  match Toml.parse document with
  | some t => .ok t
  | none => .error (.parse inlineOrigin syntaxReason)

/-- The settings of the log as TOML. -/
def logToToml (l : LogSettings) : Toml :=
  let file := (l.file.map fun path ↦ ("file", Toml.text path)).toList
  .table (file ++ [("level", .text l.level.name)])

/-- The settings of the language servers as TOML. -/
def lspToToml (s : ServerSettings) : Toml := .table [
  ("enabled", .boolean s.enabled),
  ("request_timeout_secs", .integer s.requestTimeoutSecs.toNat),
  ("servers", .table (s.servers.entries.map fun (language, e) ↦ (language, e.toToml)))]

/-- A configuration as TOML, in which the greatest whole number is `2 ^ 63 - 1`. -/
def toToml? (c : Config) : Except SchemaFault Toml :=
  if c.lsp.requestTimeoutSecs.toNat < 0x8000000000000000 then
    .ok (.table [("log", logToToml c.log), ("lsp", lspToToml c.lsp)])
  else .error ⟨[], .unwritable⟩

/-- A fault in the types of the settings as a fault of the text. -/
def ofSchemaFault (f : SchemaFault) : ConfigFault := .parse inlineOrigin f.message

/-- Lay the settings of a text over a configuration. -/
def overlay (below : Config) (document : String) : Except ConfigFault Config := do
  let below ← below.toToml?.mapError ofSchemaFault
  let above ← parse document
  (Schema.config true (below.merge above)).mapError ofSchemaFault

/-- The configuration of a single text. An array may have more elements than there are settings,
and a day or time counts as a table without settings. -/
def ofDocument (document : String) : Except ConfigFault Config := do
  let t ← parse document
  match Schema.config false t.withoutDates with
  | .ok c => c.validated
  | .error _ => .error (.parse inlineOrigin syntaxReason)

end Config

end LanguageHub
