import LanguageHub.Json.Decode

/-!
# The handshake

What client and server say of themselves when a connection begins.
-/

namespace LanguageHub

/-- Who takes part in a handshake. -/
structure Party where
  name : String
  version : Option String
  deriving DecidableEq, Repr

namespace Party

/-- A party as JSON. -/
def toJson (p : Party) : Json :=
  .object ([("name", .text p.name)] ++ Json.optional "version" (p.version.map .text))

/-- How the fields of a party are read. -/
def record : Json.Record (Option String × Option String) where
  name := "ClientInfo"
  fields := [("name", false), ("version", true)]
  take name v d :=
    match name with
    | "name" => return (some (← Json.string v), d.2)
    | _ => return (d.1, ← Json.nullable Json.string v)

/-- Read a party. -/
def ofJson : Json.Decoder Party := fun v ↦ do
  let (name, version) ← record.read (none, none) v
  return ⟨← Json.required "name" name, version⟩

end Party

/-- What the client says of itself when the handshake begins. -/
structure Handshake where
  processId : UInt32
  rootUri : String
  capabilities : Json
  client : Party

/-- What the client is able to do. -/
def clientCapabilities : Json :=
  .object [
    ("textDocument", .object [
      ("completion", .object [
        ("completionItem", .object [
          ("documentationFormat", .array [.text "plaintext"]),
          ("snippetSupport", .bool false)])]),
      ("publishDiagnostics", .object [("relatedInformation", .bool false)]),
      ("synchronization", .object [
        ("didSave", .bool true),
        ("dynamicRegistration", .bool false),
        ("willSave", .bool false)])]),
    ("workspace", .object [
      ("configuration", .bool false),
      ("workspaceFolders", .bool false)])]

/-- What a server says of itself when it accepts the handshake. -/
structure HandshakeResult where
  capabilities : Json
  server : Option Party

namespace HandshakeResult

/-- How the fields of a handshake result are read. -/
def record : Json.Record (Option Json × Option Party) where
  name := "InitializeResult"
  fields := [("capabilities", false), ("serverInfo", true)]
  take name v d :=
    match name with
    | "capabilities" => return (some v, d.2)
    | _ => return (d.1, ← Json.nullable Party.ofJson v)

/-- Read a handshake result. -/
def ofJson : Json.Decoder HandshakeResult := fun v ↦ do
  let (capabilities, server) ← record.read (none, none) v
  return ⟨← Json.required "capabilities" capabilities, server⟩

end HandshakeResult

end LanguageHub
