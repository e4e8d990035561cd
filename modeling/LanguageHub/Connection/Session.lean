import LanguageHub.Connection.Basic
import LanguageHub.Tasks

/-!
# Operations on one connection

Any number of calls, notifications and closings of one connection, side by side, with a clock and
a server that may do anything. `Step` says what may happen next.
-/

namespace LanguageHub

/-- An operation on a connection. -/
inductive ConnectionRequest where
  | call (request : Request) (limit : Option Duration)
  | notify (notice : Notice)
  | close

/-- An operation that is going on. -/
inductive ConnectionTask where
  | call (call : Call)
  | notify (call : WriteCall)
  | close (closing : Closing)
  deriving DecidableEq, Repr

/-- The answer of an operation. -/
inductive ConnectionAnswer where
  | outcome (outcome : Outcome)
  | done (answer : Except Failure Unit)

/-- A connection and the operations on it. -/
structure ConnectionSession where
  connection : Connection
  /-- The time in nanoseconds. -/
  now : Nat := 0
  tasks : Tasks ConnectionTask ConnectionAnswer := {}
  /-- The notifications that the handler has received, in order. -/
  handled : List ServerNotice := []

namespace ConnectionSession

/-- A connection over pipes that hold `capacity` bytes in each direction. -/
def overPipes (capacity : Nat) (handlerFails : Bool) : ConnectionSession :=
  { connection := .ofTransport { sink.capacity := some capacity } handlerFails }

/-- Go on with what a task has come to. -/
def record (s : ConnectionSession) (n : Nat) (c : Connection) :
    Progress ConnectionTask ConnectionAnswer → ConnectionSession
  | .running task => { s with connection := c, tasks := s.tasks.update n task }
  | .finished answer => { s with connection := c, tasks := s.tasks.finish n answer }

/-- Start an operation under a number. -/
def start (s : ConnectionSession) (n : Nat) (r : ConnectionRequest) : ConnectionSession :=
  match r with
  | .call request limit =>
    match Call.start (.operation n) request limit s.connection with
    | (.running call, connection) =>
      { s with connection, tasks := s.tasks.start n (.call call) }
    | (.finished outcome, connection) =>
      { s with connection, tasks := s.tasks.finish n (.outcome outcome) }
  | .notify notice =>
    let (call, connection) := s.connection.startNotice (.operation n) notice
    { s with connection, tasks := s.tasks.start n (.notify call) }
  | .close =>
    let (closing, connection) := Closing.start s.connection
    { s with connection, tasks := s.tasks.start n (.close closing) }

/-- One step of a task on a connection. -/
def stepTask? (n now : Nat) (task : ConnectionTask) (c : Connection) :
    Option (Progress ConnectionTask ConnectionAnswer × Connection) :=
  match task with
  | .call k =>
    (k.step? (.operation n) now c).map fun
      | (.running k, c) => (.running (.call k), c)
      | (.finished outcome, c) => (.finished (.outcome outcome), c)
  | .notify k =>
    (c.stepNotice? (.operation n) k).map fun
      | (.running k, c) => (.running (.notify k), c)
      | (.finished answer, c) => (.finished (.done answer), c)
  | .close k =>
    (k.step? c).map fun
      | (.running k, c) => (.running (.close k), c)
      | (.finished answer, c) => (.finished (.done answer), c)

/-- The operation with the given number takes a step, if it can. -/
def advance? (s : ConnectionSession) (n : Nat) : Option ConnectionSession := do
  let task ← s.tasks.state? n
  let (progress, c) ← stepTask? n s.now task s.connection
  return s.record n c progress

/-- The task that reads takes a step, if it can. -/
def advanceReading? (s : ConnectionSession) : Option ConnectionSession :=
  s.connection.stepReading?.map fun (connection, notice) ↦
    { s with connection, handled := s.handled ++ notice.toList }

/-- Something takes a step, if it can: the task that reads comes first, then the operations in
the order in which they were started. -/
def advanceAny? (s : ConnectionSession) : Option ConnectionSession :=
  match s.advanceReading? with
  | some t => some t
  | none => s.tasks.numbers.findSome? s.advance?

/-- What the other side, the clock or the handler of notifications may do. -/
inductive Event where
  | arrive (piece : Bytes)
  | endInflow (ending : Ending)
  | deliver (count : Nat)
  | breakSink (reason : String)
  | tick (time : Duration)
  /-- The handler of notifications fails from now on, or does not. -/
  | setHandler (fails : Bool)

/-- What an event leads to. -/
def happen (s : ConnectionSession) : Event → ConnectionSession
  | .arrive piece => { s with connection := s.connection.arrive piece }
  | .endInflow ending => { s with connection := s.connection.endInflow ending }
  | .deliver count => { s with connection := s.connection.deliver count }
  | .breakSink reason => { s with connection := s.connection.breakSink reason }
  | .tick time => { s with now := s.now + time.nanos }
  | .setHandler fails => { s with connection := { s.connection with handlerFails := fails } }

/-- The numbers that have been given to operations. -/
def numbers (s : ConnectionSession) : List Nat := s.tasks.numbers ++ s.tasks.answers.map (·.1)

/-- What may happen next. -/
inductive Step : ConnectionSession → ConnectionSession → Prop where
  | start (s : ConnectionSession) (n : Nat) (r : ConnectionRequest) (fresh : n ∉ s.numbers) :
      Step s (s.start n r)
  | advance {s t : ConnectionSession} (n : Nat) (h : s.advance? n = some t) : Step s t
  | read {s t : ConnectionSession} (h : s.advanceReading? = some t) : Step s t
  | event (s : ConnectionSession) (e : Event) : Step s (s.happen e)

/-- What can come of a session. -/
inductive Reachable (s : ConnectionSession) : ConnectionSession → Prop where
  | refl : Reachable s s
  | step {t u : ConnectionSession} (h : Reachable s t) (next : Step t u) : Reachable s u

/-- Everything that can run has run. -/
def Quiescent (s : ConnectionSession) : Prop := s.advanceAny? = none

/-- How many bytes a task has to write. -/
def toWrite : ConnectionTask → Nat
  | .call ⟨_, _, _, .sending call⟩ => call.left
  | .notify call => call.left
  | _ => 0

/-- More steps than can be taken before everything waits. -/
def stepBound (s : ConnectionSession) : Nat :=
  let size := s.tasks.running.foldr (fun e n ↦ toWrite e.2 + 1 + n) (s.connection.size + 4)
  16 * (size * size)

/-- Everything goes on until nothing can. -/
def settled (s : ConnectionSession) : ConnectionSession := settle advanceAny? s.stepBound s

/-- The server reads until there is nothing more to read, `fuel` times at most, while everything
goes on; the bytes it has read, and whether the stream to it is at its end. -/
def readUpTo (s : ConnectionSession) : (fuel : Nat) → ConnectionSession × Bytes × Bool
  | 0 => (s, [], false)
  | fuel + 1 =>
    let sink := s.connection.transport.sink
    if sink.unread.isEmpty then (s, [], sink.finished)
    else
      let (t, bytes, atEnd) := readUpTo (s.happen (.deliver sink.unread.length)).settled fuel
      (t, sink.unread ++ bytes, atEnd)

/-- The server reads until there is nothing more to read. -/
def readAll (s : ConnectionSession) : ConnectionSession × Bytes × Bool := s.readUpTo s.stepBound

end ConnectionSession

end LanguageHub
