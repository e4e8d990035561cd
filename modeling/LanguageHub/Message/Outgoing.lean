import LanguageHub.Json.Printer
import LanguageHub.Message.Handshake
import LanguageHub.Position

/-!
# Messages to a server

Requests and notifications that the client sends, and the answer it gives to every request of the
server. The members of each object stand in the order of their names.
-/

namespace LanguageHub

/-- The version of JSON-RPC that every message states. -/
def rpcVersion : Json := .text "2.0"

/-- A request of the client. -/
inductive Request where
  /-- The first message of a connection. -/
  | handshake (params : Handshake)
  /-- Ask for completions at a position of a document. -/
  | completion (uri : String) (position : Position)

namespace Request

/-- The method of a request. -/
def method : Request → String
  | handshake _ => "initialize"
  | completion .. => "textDocument/completion"

/-- The parameters of a request. -/
def params : Request → Json
  | handshake h =>
    .object [
      ("capabilities", h.capabilities),
      ("clientInfo", h.client.toJson),
      ("processId", .ofInt h.processId.toNat),
      ("rootUri", .text h.rootUri)]
  | completion uri position =>
    .object [
      ("position", position.toJson),
      ("textDocument", .object [("uri", .text uri)])]

/-- The message that makes a request under the given id. -/
def toJson (r : Request) (id : Int) : Json :=
  .object [
    ("id", .ofInt id), ("jsonrpc", rpcVersion), ("method", .text r.method), ("params", r.params)]

/-- The text of the message that makes a request under the given id. -/
def encode (r : Request) (id : Int) : String := (r.toJson id).sorted.render

end Request

/-- A notification of the client. -/
inductive Notice where
  /-- The handshake is complete. -/
  | handshakeDone
  /-- A document was opened. -/
  | didOpen (uri language : String) (version : Int) (text : String)
  /-- A document was replaced by the last of the given texts. -/
  | didChange (uri : String) (version : Int) (texts : List String)
  /-- A document was saved. -/
  | didSave (uri : String) (text : Option String)
  /-- The connection is about to end. -/
  | shutdown
  deriving DecidableEq, Repr

namespace Notice

/-- The method of a notification. -/
def method : Notice → String
  | handshakeDone => "initialized"
  | didOpen .. => "textDocument/didOpen"
  | didChange .. => "textDocument/didChange"
  | didSave .. => "textDocument/didSave"
  | shutdown => "shutdown"

/-- The parameters of a notification, if it has any. -/
def params : Notice → Option Json
  | handshakeDone => some (.object [])
  | didOpen uri language version text =>
    some (.object [("textDocument", .object [
      ("languageId", .text language), ("text", .text text), ("uri", .text uri),
      ("version", .ofInt version)])])
  | didChange uri version texts =>
    some (.object [
      ("contentChanges", .array (texts.map fun t ↦ .object [("text", .text t)])),
      ("textDocument", .object [("uri", .text uri), ("version", .ofInt version)])])
  | didSave uri text =>
    some (.object (Json.optional "text" (text.map .text) ++
      [("textDocument", .object [("uri", .text uri)])]))
  | shutdown => none

/-- The message that makes a notification. -/
def toJson (n : Notice) : Json :=
  .object ([("jsonrpc", rpcVersion), ("method", .text n.method)] ++
    Json.optional "params" n.params)

/-- The text of the message that makes a notification. -/
def encode (n : Notice) : String := n.toJson.sorted.render

end Notice

/-- The answer to a request of the server: a null result under the id of the request. -/
def nullReply (id : Json) : Json :=
  .object [("id", id), ("jsonrpc", rpcVersion), ("result", .null)]

/-- The text of the answer to a request of the server. -/
def encodeNullReply (id : Json) : String := (nullReply id).render

end LanguageHub
