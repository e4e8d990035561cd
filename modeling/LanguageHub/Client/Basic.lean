import LanguageHub.Completion
import LanguageHub.Connection.Basic
import LanguageHub.DiagnosticSet
import LanguageHub.LogLevel
import LanguageHub.Uri.FileUri

/-!
# Clients

A client is a connection to the server of one language. It begins with a handshake, then tells
the server of documents and asks for completions, and ends with a shutdown. What the server
publishes about documents is kept.
-/

namespace LanguageHub

/-- Where a client stands. -/
inductive ClientPhase where
  /-- The handshake is going on. -/
  | starting
  | ready
  | shuttingDown
  | terminated
  deriving DecidableEq, Repr

/-- The word for where a client stands. -/
def ClientPhase.word : ClientPhase → String
  | starting => "Starting"
  | ready => "Ready"
  | shuttingDown => "ShuttingDown"
  | terminated => "Terminated"

/-- The process of a server. -/
inductive Child where
  | running
  /-- It was told to die and has not been seen to. -/
  | killed
  /-- It is gone. -/
  | exited
  deriving DecidableEq, Repr

/-- A client of a language server. -/
structure Client where
  language : String
  /-- The time that each request is given. -/
  limit : Option Duration
  connection : Connection
  phase : ClientPhase := .starting
  /-- What the server has said of itself. -/
  server : Option Party := none
  /-- The version of each document that was opened or changed. -/
  versions : Dictionary Int := .empty
  diagnostics : DiagnosticSet := {}
  child : Option Child := none

/-- What a client does about a notification besides keeping it. -/
inductive ClientEvent where
  /-- The diagnostics of a document were replaced by these. -/
  | published (uri : String) (diagnostics : List Diagnostic)
  /-- The server has a message for the log or, when `shown`, for the user. -/
  | message (level : LogLevel) (shown : Bool) (text : String)
  deriving DecidableEq, Repr

namespace Client

/-- Where a client stands, as others see it: without a connection it is not ready. -/
def state (c : Client) : ClientPhase :=
  if c.phase = .ready && c.connection.isClosed then .terminated else c.phase

/-- Whether operations are accepted. -/
def isReady (c : Client) : Bool := c.state = .ready

/-- Why an operation is refused, if it is. -/
def refusal? (c : Client) : Option Failure :=
  if c.isReady then none
  else some (.transport s!"{c.language} server is not ready ({c.state.word})")

/-! ### What the server sends -/

/-- The level of a message of the given kind. -/
def levelOf (kind : UInt8) : LogLevel :=
  if kind = 1 then .error else if kind = 2 then .warn else if kind = 3 then .info else .debug

/-- Act on a notification. Diagnostics are kept under the canonical form of their URI. -/
def handle (c : Client) : ServerNotice → Client × ClientEvent
  | .publish p =>
    let uri := Uri.normalizeUri p.uri
    ({ c with diagnostics := c.diagnostics.publish uri p.diagnostics },
      .published uri p.diagnostics)
  | .logMessage m => (c, .message (levelOf m.kind) false m.message)
  | .showMessage m => (c, .message (levelOf m.kind) true m.message)

/-- One step of the task that reads. -/
def stepReading? (c : Client) : Option (Client × Option ClientEvent) :=
  match c.connection.stepReading? with
  | none => none
  | some (connection, none) => some ({ c with connection }, none)
  | some (connection, some notice) =>
    let (c, event) := { c with connection }.handle notice
    some (c, some event)

/-- The diagnostics that are kept for a document. -/
def diagnosticsOf (c : Client) (uri : String) : List Diagnostic :=
  c.diagnostics.get (Uri.normalizeUri uri)

/-- Change the connection. -/
def mapConnection (c : Client) (f : Connection → Connection) : Client :=
  { c with connection := f c.connection }

/-- Forget the client: both streams are let go. -/
def drop (c : Client) : Client := c.mapConnection (·.mapTransport Transport.drop)

/-- The owner of the client gives it up: the task that reads is stopped, both streams are let go,
and the process is killed. -/
def giveUp (c : Client) : Client :=
  let child := if c.child = some .running then some .killed else c.child
  { c with child, connection.stopping := true }.drop

/-! ### Documents -/

/-- A document operation. -/
inductive DocumentRequest where
  | opened (uri text : String)
  | changed (uri text : String)
  | saved (uri text : String)
  deriving DecidableEq, Repr

/-- The version of a document after one more change. -/
def nextVersion (c : Client) (uri : String) : Int := (c.versions.get? uri).getD 1 + 1

/-- The notification for a document operation, and the client with the new version of the
document. -/
def documentNotice (c : Client) : DocumentRequest → Notice × Client
  | .opened uri text =>
    (.didOpen uri c.language 1 text, { c with versions := c.versions.insert uri 1 })
  | .changed uri text =>
    let version := c.nextVersion uri
    (.didChange uri version [text], { c with versions := c.versions.insert uri version })
  | .saved uri text => (.didSave uri (some text), c)

/-- Begin a document operation, unless the client is not ready. -/
def startDocument (a : Agent) (r : DocumentRequest) (c : Client) :
    Progress WriteCall (Except Failure Unit) × Client :=
  match c.refusal? with
  | some f => (.finished (.error f), c)
  | none =>
    let (notice, c) := c.documentNotice r
    let (call, connection) := c.connection.startNotice a notice
    (.running call, { c with connection })

/-- One step of a document operation. -/
def stepNotice? (a : Agent) (call : WriteCall) (c : Client) :
    Option (Progress WriteCall (Except Failure Unit) × Client) :=
  (c.connection.stepNotice? a call).map fun (p, connection) ↦ (p, { c with connection })

/-! ### Completions -/

/-- What the client makes of the outcome of a completion request. -/
def itemsOf (outcome : Outcome) : Except Failure (List CompletionItem) :=
  match outcome with
  | .error f => .error f
  | .ok v =>
    match CompletionAnswer.ofJson v with
    | .ok answer => .ok answer.items
    | .error m => .error (.protocol s!"malformed completion result: {m.message}")

/-- Begin to ask for completions, unless the client is not ready. -/
def startCompletion (a : Agent) (uri : String) (position : Position) (c : Client) :
    Progress Call (Except Failure (List CompletionItem)) × Client :=
  match c.refusal? with
  | some f => (.finished (.error f), c)
  | none =>
    match Call.start a (.completion uri position) c.limit c.connection with
    | (.running call, connection) => (.running call, { c with connection })
    | (.finished outcome, connection) => (.finished (itemsOf outcome), { c with connection })

/-- One step of a completion request. -/
def stepCompletion? (a : Agent) (now : Nat) (call : Call) (c : Client) :
    Option (Progress Call (Except Failure (List CompletionItem)) × Client) :=
  match call.step? a now c.connection with
  | none => none
  | some (.running call, connection) => some (.running call, { c with connection })
  | some (.finished outcome, connection) =>
    some (.finished (itemsOf outcome), { c with connection })

end Client

/-! ### The end of a client -/

/-- The ending of a client: the connection is closed, then the process is stopped. -/
inductive Termination where
  | closing (closing : Closing)
  | stoppingChild
  deriving DecidableEq, Repr

namespace Termination

/-- Begin to end a client. -/
def start (c : Client) : Termination × Client :=
  let (k, connection) := Closing.start c.connection
  (.closing k, { c with connection })

/-- One step of the ending of a client. A process that is still running is killed, and the end
comes when it is gone. -/
def step? (k : Termination) (c : Client) : Option (Progress Termination Unit × Client) :=
  match k with
  | closing k =>
    match k.step? c.connection with
    | none => none
    | some (.running k, connection) => some (.running (.closing k), { c with connection })
    | some (.finished _, connection) => some (.running .stoppingChild, { c with connection })
  | stoppingChild =>
    match c.child with
    | some .running => some (.running .stoppingChild, { c with child := some .killed })
    | some .killed => none
    | _ => some (.finished (), { c with phase := .terminated })

end Termination

/-- A shutdown that is going on: the server is told, for as long as it may take, and the client
ends. -/
inductive Shutdown where
  /-- The server is being told, until the time `due` at the latest. -/
  | announcing (due : Nat) (call : WriteCall)
  | terminating (termination : Termination)
  deriving DecidableEq, Repr

namespace Shutdown

/-- How long a shutdown tries to tell the server. -/
def patience : Duration := .ofMillis 500

/-- Begin to shut a client down. Only the first shutdown does anything. -/
def start (a : Agent) (now : Nat) (c : Client) : Progress Shutdown Unit × Client :=
  match c.phase with
  | .shuttingDown | .terminated => (.finished (), c)
  | _ =>
    let (call, connection) := c.connection.startNotice a .shutdown
    (.running (.announcing (now + patience.nanos) call),
      { c with connection, phase := .shuttingDown })

/-- Begin to end the client. -/
def terminate (c : Client) : Progress Shutdown Unit × Client :=
  let (k, c) := Termination.start c
  (.running (.terminating k), c)

/-- One step of a shutdown at the time `now`. -/
def step? (a : Agent) (now : Nat) (k : Shutdown) (c : Client) :
    Option (Progress Shutdown Unit × Client) :=
  match k with
  | announcing due call =>
    match c.stepNotice? a call with
    | some (.running call, c) => some (.running (.announcing due call), c)
    | some (.finished _, c) => some (terminate c)
    | none =>
      if due ≤ now then
        some (terminate (c.mapConnection (·.mapTransport (WriteCall.abandon a))))
      else none
  | terminating k =>
    (k.step? c).map fun
      | (.running k, c) => (.running (.terminating k), c)
      | (.finished (), c) => (.finished (), c)

end Shutdown

/-! ### The beginning of a client -/

/-- A handshake that is going on. -/
inductive Connecting where
  /-- The server is asked. -/
  | asking (call : Call)
  /-- The server has accepted and is told that the handshake is complete. -/
  | confirming (server : Option Party) (call : WriteCall)
  /-- The handshake has failed and the client ends. -/
  | abandoning (failure : Failure) (termination : Termination)
  deriving DecidableEq, Repr

namespace Connecting

/-- How the client introduces itself. -/
def introduction : Party := ⟨"polyglot", some "0.1.0"⟩

/-- The first request of a client that works in the directory with the given URI. -/
def greeting (processId : UInt32) (rootUri : String) : Request :=
  .handshake ⟨processId, rootUri, clientCapabilities, introduction⟩

/-- The failure of a handshake that failed for the given reason. -/
def failureOf : Failure → Failure
  | .handshake reason => .handshake reason
  | f => .handshake f.message

/-- The handshake fails: the client ends. -/
def abandon (f : Failure) (c : Client) : Progress Connecting (Except Failure Unit) × Client :=
  let (k, c) := Termination.start c
  (.running (.abandoning (failureOf f) k), c)

/-- What the server says of itself in its answer. -/
def serverOf (v : Json) : Except Failure (Option Party) :=
  match HandshakeResult.ofJson v with
  | .ok r => .ok r.server
  | .error m => .error (.handshake s!"malformed initialize result: {m.message}")

/-- Go on with the outcome of the first request. -/
def afterOutcome (a : Agent) (outcome : Outcome) (c : Client) :
    Progress Connecting (Except Failure Unit) × Client :=
  match outcome.bind serverOf with
  | .error f => abandon f c
  | .ok server =>
    let (call, connection) := c.connection.startNotice a .handshakeDone
    (.running (.confirming server call), { c with connection })

/-- Begin the handshake. -/
def start (a : Agent) (greeting : Request) (c : Client) :
    Progress Connecting (Except Failure Unit) × Client :=
  match Call.start a greeting c.limit c.connection with
  | (.running call, connection) => (.running (.asking call), { c with connection })
  | (.finished outcome, connection) => afterOutcome a outcome { c with connection }

/-- One step of a handshake at the time `now`. -/
def step? (a : Agent) (now : Nat) (k : Connecting) (c : Client) :
    Option (Progress Connecting (Except Failure Unit) × Client) :=
  match k with
  | asking call =>
    match call.step? a now c.connection with
    | none => none
    | some (.running call, connection) => some (.running (.asking call), { c with connection })
    | some (.finished outcome, connection) => some (afterOutcome a outcome { c with connection })
  | confirming server call =>
    match c.stepNotice? a call with
    | none => none
    | some (.running call, c) => some (.running (.confirming server call), c)
    | some (.finished (.ok ()), c) => some (.finished (.ok ()), { c with server, phase := .ready })
    | some (.finished (.error f), c) => some (abandon f c)
  | abandoning f k =>
    match k.step? c with
    | none => none
    | some (.running k, c) => some (.running (.abandoning f k), c)
    | some (.finished (), c) => some (.finished (.error f), c.drop)

end Connecting

end LanguageHub
