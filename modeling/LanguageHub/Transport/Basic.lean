import LanguageHub.Failure
import LanguageHub.Lock
import LanguageHub.Stream.Inflow
import LanguageHub.Stream.Outflow

/-!
# Transports

The stream from a server and the stream to it, each behind a lock of its own, so that reading and
writing do not wait for each other. Closing lets go of a stream only if nobody uses it at that
moment; a write that was going on lets go of its stream when it ends.

A read or a write is a small machine: `start` joins the line for the lock, `step?` goes on until
the next point where others may come in between. A step is absent as long as the machine has to
wait.
-/

namespace LanguageHub

/-- The two streams of a server. -/
structure Transport where
  source : Source := {}
  /-- Whether the stream from the server is still held. -/
  hasSource : Bool := true
  readers : Lock := {}
  sink : Outflow := {}
  /-- Whether the stream to the server is still held. -/
  hasSink : Bool := true
  writers : Lock := {}
  closed : Bool := false
  deriving DecidableEq, Repr

/-- The failure of an operation on a transport that has let go of its stream. -/
def Failure.transportClosed : Failure := .transport "transport closed"

/-- What one step of a machine with states `σ` and answers `α` leads to. -/
inductive Progress (σ α : Type) where
  | running (state : σ)
  | finished (answer : α)

/-- A read that is going on. -/
inductive ReadCall where
  /-- It waits for the lock. -/
  | queued (goal : ReadGoal)
  /-- It has the lock and reads. -/
  | reading (goal : ReadGoal)
  deriving DecidableEq, Repr

namespace ReadCall

/-- Begin to read: join the line of readers. -/
def start (a : Agent) (goal : ReadGoal) (t : Transport) : ReadCall × Transport :=
  (.queued goal, { t with readers := t.readers.request a })

/-- The read ends with an answer and passes the lock on. -/
def finish (a : Agent) (answer : Except Failure Bytes) (t : Transport) :
    Progress ReadCall (Except Failure Bytes) × Transport :=
  (.finished answer, { t with readers := t.readers.leave a })

/-- One step of a read. -/
def step? (a : Agent) (c : ReadCall) (t : Transport) :
    Option (Progress ReadCall (Except Failure Bytes) × Transport) :=
  match c with
  | queued goal =>
    if t.readers.isHeldBy a then
      if t.hasSource then some (.running (.reading goal), t)
      else some (finish a (.error .transportClosed) t)
    else none
  | reading goal =>
    match goal.step? t.source with
    | none => none
    | some (.more goal, source) => some (.running (.reading goal), { t with source })
    | some (.done answer, source) =>
      some (finish a (answer.mapError .transport) { t with source })

end ReadCall

/-- A write that is going on. -/
inductive WriteCall where
  /-- It waits for the lock. -/
  | queued (data : Bytes)
  /-- It has the lock, and these bytes are not written yet. -/
  | writing (rest : Bytes)
  deriving DecidableEq, Repr

namespace WriteCall

/-- Begin to write: join the line of writers. -/
def start (a : Agent) (data : Bytes) (t : Transport) : WriteCall × Transport :=
  (.queued data, { t with writers := t.writers.request a })

/-- The write ends with an answer and passes the lock on. If the transport was closed meanwhile,
the stream is let go. -/
def finish (a : Agent) (answer : Except Failure Unit) (t : Transport) :
    Progress WriteCall (Except Failure Unit) × Transport :=
  let u := if t.closed then { t with hasSink := false, sink := t.sink.shutdown.2 } else t
  (.finished answer, { u with writers := u.writers.leave a })

/-- One step of a write. -/
def step? (a : Agent) (c : WriteCall) (t : Transport) :
    Option (Progress WriteCall (Except Failure Unit) × Transport) :=
  match c with
  | queued data =>
    if t.writers.isHeldBy a then
      if t.hasSink then some (.running (.writing data), t)
      else some (.finished (.error .transportClosed), { t with writers := t.writers.leave a })
    else none
  | writing [] => some (finish a (t.sink.flush.mapError .transport) t)
  | writing rest =>
    match t.sink.write? rest with
    | none => none
    | some (.error reason) => some (finish a (.error (.transport reason)) t)
    | some (.ok (sink, rest)) => some (.running (.writing rest), { t with sink })

/-- How many bytes are not written yet. -/
def left : WriteCall → Nat
  | queued data => data.length
  | writing rest => rest.length

/-- Give a write up: it leaves the line, and what it has written stays written. -/
def abandon (a : Agent) (t : Transport) : Transport := { t with writers := t.writers.leave a }

end WriteCall

namespace Transport

/-- Close both directions without waiting for reads and writes that are going on. Only the first
call does anything. -/
def close (t : Transport) : Except Failure Unit × Transport :=
  if t.closed then (.ok (), t)
  else
    let t := { t with closed := true, hasSource := t.hasSource && !t.readers.isFree }
    if t.hasSink && t.writers.isFree then
      let (answer, sink) := t.sink.shutdown
      (answer.mapError .transport, { t with hasSink := false, sink })
    else (.ok (), t)

/-- Let go of both streams, whatever is going on. -/
def drop (t : Transport) : Transport :=
  { t with hasSource := false, hasSink := false, sink := t.sink.shutdown.2 }

/-- Whether both streams are let go. -/
def isReleased (t : Transport) : Bool := !t.hasSource && !t.hasSink

end Transport

end LanguageHub
