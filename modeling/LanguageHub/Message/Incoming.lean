import LanguageHub.Diagnostic
import LanguageHub.Failure
import LanguageHub.Json.Printer
import LanguageHub.Json.Typed

/-!
# Messages from a server

A message is a response to a call of the client, a request of the server, or a notification.
Which of them it is follows from whether it has an id and a method. Notifications are decoded
further; those with other methods than the known ones are refused.
-/

namespace LanguageHub

/-- Diagnostics that a server publishes for a document. -/
structure Publication where
  uri : String
  version : Option Int32
  diagnostics : List Diagnostic
  deriving DecidableEq, Repr

namespace Publication

/-- The fields of a publication as they are read. -/
structure Draft where
  uri : Option String := none
  version : Option Int32 := none
  diagnostics : Option (List Diagnostic) := none

/-- How the fields of a publication are read. -/
def record : Json.Record Draft where
  name := "PublishDiagnosticsParams"
  fields := [("uri", false), ("version", true), ("diagnostics", false)]
  take name v d :=
    match name with
    | "uri" => return { d with uri := some (← Json.string v) }
    | "version" => return { d with version := ← Json.nullable Json.signed32 v }
    | _ => return { d with diagnostics := some (← Json.list Diagnostic.ofJson v) }

/-- Read a publication. -/
def ofJson : Json.Decoder Publication := fun v ↦ do
  let d ← record.read {} v
  return {
    uri := ← Json.required "uri" d.uri
    version := d.version
    diagnostics := ← Json.required "diagnostics" d.diagnostics }

end Publication

/-- A message for the user. -/
structure UserMessage where
  kind : UInt8
  message : String
  deriving DecidableEq, Repr

namespace UserMessage

/-- How the fields of a message for the user are read. -/
def record : Json.Record (Option UInt8 × Option String) where
  name := "MessageParams"
  fields := [("type", false), ("message", false)]
  take name v d :=
    match name with
    | "type" => return (some (← Json.unsigned8 v), d.2)
    | _ => return (d.1, some (← Json.string v))

/-- Read a message for the user. -/
def ofJson : Json.Decoder UserMessage := fun v ↦ do
  let (kind, message) ← record.read (none, none) v
  return ⟨← Json.required "type" kind, ← Json.required "message" message⟩

end UserMessage

/-- A notification of the server. -/
inductive ServerNotice where
  | publish (publication : Publication)
  | logMessage (message : UserMessage)
  | showMessage (message : UserMessage)
  deriving DecidableEq, Repr

namespace ServerNotice

/-- The method of a notification. -/
def method : ServerNotice → String
  | publish _ => "textDocument/publishDiagnostics"
  | logMessage _ => "window/logMessage"
  | showMessage _ => "window/showMessage"

/-- Decode the parameters of a notification. -/
def decode (method : String) (params : Json) : Except Failure ServerNotice :=
  let malformed (m : Json.Mismatch) : Failure :=
    .protocol s!"malformed {method} params: {m.message}"
  match method with
  | "textDocument/publishDiagnostics" =>
    ((Publication.ofJson params).map publish).mapError malformed
  | "window/logMessage" => ((UserMessage.ofJson params).map logMessage).mapError malformed
  | "window/showMessage" => ((UserMessage.ofJson params).map showMessage).mapError malformed
  | other => .error (.unsupportedMethod other)

end ServerNotice

/-- An error that a server answers a call with. -/
structure RpcError where
  code : Int64
  message : String
  deriving DecidableEq, Repr

namespace RpcError

/-- How the fields of an error are read. -/
def record : Json.TextRecord (Option Int64 × Option String) where
  name := "RpcError"
  fields := [("code", false), ("message", false)]
  take name d cs := do
    match name with
    | "code" =>
      let (n, rest) ← Json.readInt64 cs
      return ((some n, d.2), rest)
    | _ =>
      let (s, rest) ← Json.readString cs
      return ((d.1, some s), rest)

/-- Read an error. -/
def read : Json.Reader RpcError :=
  record.read (none, none) fun (code, message) ↦ do
    return ⟨← Json.required "code" code, ← Json.required "message" message⟩

/-- The failure of a call that was answered with this error. -/
def toFailure (e : RpcError) : Failure := .rpc e.code.toInt e.message

end RpcError

/-- The members of a message that tell what it is. A null member counts as absent. -/
structure Envelope where
  id : Option Json := none
  method : Option String := none
  params : Option Json := none
  result : Option Json := none
  error : Option RpcError := none

namespace Envelope

/-- How the members of an envelope are read. -/
def record : Json.TextRecord Envelope where
  name := "Envelope"
  fields :=
    [("id", true), ("method", true), ("params", true), ("result", true), ("error", true)]
  take name e cs := do
    let value := Json.readNullable (Json.readValue (Json.maxDepth - 1))
    match name with
    | "id" =>
      let (v, rest) ← value cs
      return ({ e with id := v }, rest)
    | "method" =>
      let (v, rest) ← Json.readNullable Json.readString cs
      return ({ e with method := v }, rest)
    | "params" =>
      let (v, rest) ← value cs
      return ({ e with params := v }, rest)
    | "result" =>
      let (v, rest) ← value cs
      return ({ e with result := v }, rest)
    | _ =>
      let (v, rest) ← Json.readNullable RpcError.read cs
      return ({ e with error := v }, rest)

/-- Read the envelope of a message. -/
def parse (body : String) : Except Json.Fault Envelope :=
  Json.readWhole (record.read {} .ok) body

end Envelope

/-- A message of the server. -/
inductive ServerMessage where
  /-- The answer to the call with this id. -/
  | response (id : Int) (outcome : Except RpcError Json)
  /-- A request, to be answered under its id. -/
  | request (id : Json) (method : String)
  /-- A notification. -/
  | notice (notice : ServerNotice)

namespace ServerMessage

/-- What an envelope is. -/
def ofEnvelope (e : Envelope) : Except Failure ServerMessage :=
  match e.id, e.method with
  | some id, some method => .ok (.request id method)
  | some id, none =>
    match id.int64? with
    | none => .error (.protocol s!"response id is not an integer: {id.render}")
    | some n =>
      match e.error with
      | some err => .ok (.response n (.error err))
      | none => .ok (.response n (.ok (e.result.getD .null)))
  | none, some method =>
    (ServerNotice.decode method (e.params.getD .null)).map notice
  | none, none => .error (.protocol "message has neither id nor method")

/-- Decode the body of a message. -/
def decode (body : String) : Except Failure ServerMessage :=
  match Envelope.parse body with
  | .error fault => .error (.protocol s!"invalid JSON-RPC message: {fault.message}")
  | .ok e => ofEnvelope e

end ServerMessage

end LanguageHub
