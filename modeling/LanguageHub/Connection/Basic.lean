import LanguageHub.CallTable
import LanguageHub.Frame.Reading
import LanguageHub.Message.Incoming
import LanguageHub.Message.Outgoing

/-!
# Connections

A connection carries calls and notifications to a server and reads what the server sends: answers
go to the calls that wait for them, notifications to a handler, and requests are answered with
null. Reading goes on until the stream ends or breaks, the handler fails, or the connection is
closed; then every waiting call fails.
-/

namespace LanguageHub

/-- What the task that reads is doing. -/
inductive ReadingTask where
  /-- It reads the next frame. -/
  | fetching (call : FrameCall)
  /-- It answers a request of the server. -/
  | replying (call : WriteCall)
  /-- It has ended. -/
  | ended
  deriving DecidableEq, Repr

/-- A connection. -/
structure Connection where
  transport : Transport
  table : CallTable := {}
  /-- The id of the next call. -/
  nextId : Int := 1
  reading : ReadingTask
  /-- Whether the task that reads was told to stop. -/
  stopping : Bool := false
  /-- Whether the handler of notifications fails. -/
  handlerFails : Bool := false

namespace Connection

/-- Open a connection: the task that reads begins. -/
def ofTransport (t : Transport) (handlerFails : Bool) : Connection :=
  let (call, t) := FrameCall.start .reading t
  { transport := t, reading := .fetching call, handlerFails }

/-- Whether the connection was closed from either side. -/
def isClosed (c : Connection) : Bool := c.transport.closed || c.table.closed

/-- How many bytes there are to be read, and to be written by the task that reads. -/
def size (c : Connection) : Nat :=
  c.transport.source.length +
    match c.reading with
    | .replying call => call.left
    | _ => 0

/-! ### The task that reads -/

/-- The task that reads ends: it leaves its locks, and every waiting call fails. -/
def endReading (c : Connection) : Connection :=
  { c with
    transport := { c.transport with
      readers := c.transport.readers.leave .reading
      writers := c.transport.writers.leave .reading }
    table := c.table.failAll "server closed the connection"
    reading := .ended }

/-- Begin to read the next frame. -/
def fetch (c : Connection) : Connection :=
  let (call, transport) := FrameCall.start .reading c.transport
  { c with transport, reading := .fetching call }

/-- Act on the body of a frame. Gives the notification that is to be handled, if it is one. -/
def receive (c : Connection) (body : String) : Connection × Option ServerNotice :=
  match ServerMessage.decode body with
  | .ok (.response id outcome) =>
    let (table, _) := c.table.resolve id (outcome.mapError RpcError.toFailure)
    ({ c with table }.fetch, none)
  | .ok (.notice notice) =>
    if c.handlerFails then (c.endReading, none) else (c.fetch, some notice)
  | .ok (.request id _) =>
    let (call, transport) :=
      WriteCall.start .reading (Frame.encode (encodeNullReply id)) c.transport
    ({ c with transport, reading := .replying call }, none)
  | .error _ => (c.fetch, none)

/-- Act on a frame that was read. -/
def receiveFrame (c : Connection) (answer : FrameAnswer) : Connection × Option ServerNotice :=
  match answer with
  | .ok (some body) => c.receive body
  | .ok none => (c.endReading, none)
  | .error f => if f.isProtocol then (c.fetch, none) else (c.endReading, none)

/-- One step of the task that reads. -/
def stepReading? (c : Connection) : Option (Connection × Option ServerNotice) :=
  match c.reading with
  | .ended => none
  | .fetching call =>
    if c.stopping then some (c.endReading, none)
    else
      match call.step? .reading c.transport with
      | none => none
      | some (.running call, transport) =>
        some ({ c with transport, reading := .fetching call }, none)
      | some (.finished answer, transport) => some ({ c with transport }.receiveFrame answer)
  | .replying call =>
    if c.stopping then some (c.endReading, none)
    else
      match call.step? .reading c.transport with
      | none => none
      | some (.running call, transport) =>
        some ({ c with transport, reading := .replying call }, none)
      | some (.finished _, transport) => some ({ c with transport }.fetch, none)

/-! ### What the other side does -/

/-- Change the transport. -/
def mapTransport (c : Connection) (f : Transport → Transport) : Connection :=
  { c with transport := f c.transport }

/-- Bytes of the server arrive. -/
def arrive (c : Connection) (piece : Bytes) : Connection :=
  c.mapTransport fun t ↦ { t with source.inflow := t.source.inflow.push piece }

/-- The stream from the server ends, or breaks. -/
def endInflow (c : Connection) (ending : Ending) : Connection :=
  c.mapTransport fun t ↦ { t with source.inflow.ending := ending }

/-- The server reads at most so many bytes. -/
def deliver (c : Connection) (count : Nat) : Connection :=
  c.mapTransport fun t ↦ { t with sink := t.sink.deliver count }

/-- The server will read no more; writes fail for the given reason. -/
def breakSink (c : Connection) (reason : String) : Connection :=
  c.mapTransport fun t ↦ { t with sink.broken := some reason }

end Connection

/-! ### Calls -/

/-- A call that is going on. -/
inductive CallPhase where
  /-- The request is being written. -/
  | sending (call : WriteCall)
  /-- The request is written; the call fails at the time `due` if there is no outcome by then. -/
  | waiting (due : Option Nat)
  deriving DecidableEq, Repr

/-- A call that is going on, with its id, its ticket and the time it is given. -/
structure Call where
  id : Int
  ticket : Nat
  limit : Option Duration
  phase : CallPhase
  deriving DecidableEq, Repr

namespace Call

/-- Begin a call: take an id, register, and join the line of writers. -/
def start (a : Agent) (request : Request) (limit : Option Duration) (c : Connection) :
    Progress Call Outcome × Connection :=
  let id := c.nextId
  let c := { c with nextId := id + 1 }
  match c.table.register id with
  | .error f => (.finished (.error f), c)
  | .ok (table, ticket) =>
    let (call, transport) := WriteCall.start a (Frame.encode (request.encode id)) c.transport
    (.running ⟨id, ticket, limit, .sending call⟩, { c with transport, table })

/-- Take the id of a call out of the table. -/
def forget (k : Call) (c : Connection) : Connection := { c with table := (c.table.remove k.id).1 }

/-- One step of a call at the time `now`. An outcome that is there counts even when the time of
the call is over. -/
def step? (a : Agent) (now : Nat) (k : Call) (c : Connection) :
    Option (Progress Call Outcome × Connection) :=
  match k.phase with
  | .sending call =>
    match call.step? a c.transport with
    | none => none
    | some (.running call, transport) =>
      some (.running { k with phase := .sending call }, { c with transport })
    | some (.finished (.ok ()), transport) =>
      let due := k.limit.map fun d ↦ now + d.nanos
      some (.running { k with phase := .waiting due }, { c with transport })
    | some (.finished (.error f), transport) =>
      some (.finished (.error f), k.forget { c with transport })
  | .waiting due =>
    match c.table.fate? k.ticket with
    | some (.decided outcome) => some (.finished outcome, c)
    | some .waiting =>
      match due, k.limit with
      | some time, some limit =>
        if time ≤ now then some (.finished (.error (.timeout limit)), k.forget c) else none
      | _, _ => none
    | _ => some (.finished (.error (.transport "connection closed before response")), c)

/-- The time at which a call gives up, if it waits for one. -/
def due? (k : Call) : Option Nat :=
  match k.phase with
  | .waiting due => due
  | .sending _ => none

end Call

/-! ### Notifications -/

/-- Begin to send a notification. -/
def Connection.startNotice (a : Agent) (n : Notice) (c : Connection) : WriteCall × Connection :=
  let (call, transport) := WriteCall.start a (Frame.encode n.encode) c.transport
  (call, { c with transport })

/-- One step of the sending of a notification. -/
def Connection.stepNotice? (a : Agent) (call : WriteCall) (c : Connection) :
    Option (Progress WriteCall (Except Failure Unit) × Connection) :=
  (call.step? a c.transport).map fun (p, transport) ↦ (p, { c with transport })

/-! ### Closing -/

/-- A closing that is going on. -/
inductive Closing where
  /-- It waits for the task that reads to end. -/
  | awaitingReader
  /-- Nothing is in the way any more. -/
  | ready
  deriving DecidableEq, Repr

namespace Closing

/-- Begin to close: the first to do so stops the task that reads. -/
def start (c : Connection) : Closing × Connection :=
  if c.stopping then (.ready, c) else (.awaitingReader, { c with stopping := true })

/-- One step of a closing. -/
def step? (k : Closing) (c : Connection) :
    Option (Progress Closing (Except Failure Unit) × Connection) :=
  match k with
  | awaitingReader => if c.reading = .ended then some (.running .ready, c) else none
  | ready =>
    let (answer, transport) := c.transport.close
    some (.finished answer, { c with transport, table := c.table.failAll "connection closed" })

end Closing

end LanguageHub
