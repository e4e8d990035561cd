import LanguageHub.Client.Basic
import LanguageHub.Tasks

/-!
# Operations on one client

Any number of operations of one client, side by side, with a clock and a server that may do
anything. `Step` says what may happen next.
-/

namespace LanguageHub

/-- An operation of a client. -/
inductive ClientRequest where
  /-- Begin with the handshake, working in a directory. -/
  | connect (root : String)
  | document (request : Client.DocumentRequest)
  | completion (uri : String) (position : Position)
  | shutdown

/-- An operation that is going on. -/
inductive ClientTask where
  | connect (connecting : Connecting)
  | document (call : WriteCall)
  | completion (call : Call)
  | shutdown (shutdown : Shutdown)
  deriving DecidableEq, Repr

/-- The answer of an operation. -/
inductive ClientAnswer where
  | connected (answer : Except Failure Unit)
  | done (answer : Except Failure Unit)
  | items (answer : Except Failure (List CompletionItem))

/-- One step of an operation of a client at the time `now`. -/
def ClientTask.step? (n now : Nat) (task : ClientTask) (c : Client) :
    Option (Progress ClientTask ClientAnswer × Client) :=
  let a := Agent.operation n
  match task with
  | .connect k =>
    (k.step? a now c).map fun
      | (.running k, c) => (.running (.connect k), c)
      | (.finished answer, c) => (.finished (.connected answer), c)
  | .document k =>
    (c.stepNotice? a k).map fun
      | (.running k, c) => (.running (.document k), c)
      | (.finished answer, c) => (.finished (.done answer), c)
  | .completion k =>
    (c.stepCompletion? a now k).map fun
      | (.running k, c) => (.running (.completion k), c)
      | (.finished answer, c) => (.finished (.items answer), c)
  | .shutdown k =>
    (k.step? a now c).map fun
      | (.running k, c) => (.running (.shutdown k), c)
      | (.finished (), c) => (.finished (.done (.ok ())), c)

/-- Begin an operation of a client at the time `now`. -/
def ClientTask.start (n now : Nat) (r : ClientRequest) (c : Client) :
    Progress ClientTask ClientAnswer × Client :=
  let a := Agent.operation n
  match r with
  | .connect root =>
    match Connecting.start a (Connecting.greeting 0 (Uri.pathToUri "/" root)) c with
    | (.running k, c) => (.running (.connect k), c)
    | (.finished answer, c) => (.finished (.connected answer), c)
  | .document r =>
    match c.startDocument a r with
    | (.running k, c) => (.running (.document k), c)
    | (.finished answer, c) => (.finished (.done answer), c)
  | .completion uri position =>
    match c.startCompletion a uri position with
    | (.running k, c) => (.running (.completion k), c)
    | (.finished answer, c) => (.finished (.items answer), c)
  | .shutdown =>
    match Shutdown.start a now c with
    | (.running k, c) => (.running (.shutdown k), c)
    | (.finished (), c) => (.finished (.done (.ok ())), c)

/-- A call of the callback for diagnostics, with what was kept for the document at that moment. -/
structure CallbackCall where
  uri : String
  diagnostics : List Diagnostic
  kept : List Diagnostic
  deriving DecidableEq, Repr

/-- A message of the server in the log. -/
structure LogEntry where
  level : LogLevel
  language : String
  shown : Bool
  message : String
  deriving DecidableEq, Repr

/-- A client and the operations on it. -/
structure ClientSession where
  client : Client
  /-- The time in nanoseconds. -/
  now : Nat := 0
  tasks : Tasks ClientTask ClientAnswer := {}
  /-- Whether a callback for diagnostics is installed. -/
  hasCallback : Bool := true
  /-- The calls of the callback, in order. -/
  callbacks : List CallbackCall := []
  /-- The messages in the log, in order. -/
  log : List LogEntry := []

namespace ClientSession

/-- A client over pipes that hold `capacity` bytes in each direction. -/
def overPipes (language : String) (limit : Option Duration) (capacity : Nat)
    (hasCallback : Bool) : ClientSession :=
  { client := {
      language, limit
      connection := .ofTransport { sink.capacity := some capacity } false }
    hasCallback }

/-- A client over such pipes with the process of its server, if it has one. -/
def hosted (language : String) (limit : Option Duration) (capacity : Nat) (hasCallback : Bool)
    (child : Option Child) : ClientSession :=
  let s := overPipes language limit capacity hasCallback
  { s with client.child := child }

/-- Whether the handshake has succeeded. -/
def isConnected (s : ClientSession) : Bool := s.tasks.answers.any fun
  | (_, .connected (.ok ())) => true
  | _ => false

/-- Start an operation under a number. -/
def start (s : ClientSession) (n : Nat) (r : ClientRequest) : ClientSession :=
  match ClientTask.start n s.now r s.client with
  | (.running task, client) => { s with client, tasks := s.tasks.start n task }
  | (.finished answer, client) => { s with client, tasks := s.tasks.finish n answer }

/-- The operation with the given number takes a step, if it can. -/
def advance? (s : ClientSession) (n : Nat) : Option ClientSession := do
  let task ← s.tasks.state? n
  match ← task.step? n s.now s.client with
  | (.running task, client) => return { s with client, tasks := s.tasks.update n task }
  | (.finished answer, client) => return { s with client, tasks := s.tasks.finish n answer }

/-- Act on an event of the client: the callback is called if there is one, and a message goes
into the log. -/
def observe (s : ClientSession) : ClientEvent → ClientSession
  | .published uri diagnostics =>
    if s.hasCallback then
      let call := ⟨uri, diagnostics, s.client.diagnostics.get uri⟩
      { s with callbacks := s.callbacks ++ [call] }
    else s
  | .message level shown message =>
    { s with log := s.log ++ [⟨level, s.client.language, shown, message⟩] }

/-- The task that reads takes a step, if it can. -/
def advanceReading? (s : ClientSession) : Option ClientSession :=
  match s.client.stepReading? with
  | none => none
  | some (client, none) => some { s with client }
  | some (client, some event) => some ({ s with client }.observe event)

/-- The task that reads ends, wherever it is. -/
def endReading (s : ClientSession) : ClientSession :=
  { s with client := s.client.mapConnection (·.endReading) }

/-- Something takes a step, if it can: the task that reads comes first, then the operations in
the order in which they were started. -/
def advanceAny? (s : ClientSession) : Option ClientSession :=
  match s.advanceReading? with
  | some t => some t
  | none => s.tasks.numbers.findSome? s.advance?

/-- What the other side, the clock, the process of the server or the owner of the callback may
do. -/
inductive Event where
  | arrive (piece : Bytes)
  | endInflow (ending : Ending)
  | deliver (count : Nat)
  | breakSink (reason : String)
  | tick (time : Duration)
  | childExits
  | setCallback (installed : Bool)

/-- What an event leads to. -/
def happen (s : ClientSession) : Event → ClientSession
  | .arrive piece => { s with client := s.client.mapConnection (·.arrive piece) }
  | .endInflow ending => { s with client := s.client.mapConnection (·.endInflow ending) }
  | .deliver count => { s with client := s.client.mapConnection (·.deliver count) }
  | .breakSink reason => { s with client := s.client.mapConnection (·.breakSink reason) }
  | .tick time => { s with now := s.now + time.nanos }
  | .childExits => { s with client.child := s.client.child.map fun _ ↦ .exited }
  | .setCallback installed => { s with hasCallback := installed }

/-- The numbers that have been given to operations. -/
def numbers (s : ClientSession) : List Nat := s.tasks.numbers ++ s.tasks.answers.map (·.1)

/-- Whether an operation may be started: the handshake comes first and once, and nothing else
before it has succeeded. -/
def Admits (s : ClientSession) : ClientRequest → Prop
  | .connect _ => s.numbers = []
  | _ => s.isConnected = true

/-- What may happen next. -/
inductive Step : ClientSession → ClientSession → Prop where
  | start (s : ClientSession) (n : Nat) (r : ClientRequest) (fresh : n ∉ s.numbers)
      (admitted : s.Admits r) : Step s (s.start n r)
  | advance {s t : ClientSession} (n : Nat) (h : s.advance? n = some t) : Step s t
  | read {s t : ClientSession} (h : s.advanceReading? = some t) : Step s t
  /-- The callback is called and panics, which ends the task that reads. -/
  | callbackFails {s t : ClientSession} (h : s.advanceReading? = some t)
      (called : t.callbacks ≠ s.callbacks) : Step s t.endReading
  | event (s : ClientSession) (e : Event) : Step s (s.happen e)

/-- What can come of a session. -/
inductive Reachable (s : ClientSession) : ClientSession → Prop where
  | refl : Reachable s s
  | step {t u : ClientSession} (h : Reachable s t) (next : Step t u) : Reachable s u

/-- Everything that can run has run. -/
def Quiescent (s : ClientSession) : Prop := s.advanceAny? = none

/-- How many bytes a task has to write. -/
def toWrite : ClientTask → Nat
  | .connect (.asking ⟨_, _, _, .sending call⟩) => call.left
  | .connect (.confirming _ call) => call.left
  | .document call => call.left
  | .completion ⟨_, _, _, .sending call⟩ => call.left
  | .shutdown (.announcing _ call) => call.left
  | _ => 0

/-- More steps than can be taken before everything waits. -/
def stepBound (s : ClientSession) : Nat :=
  let connection := s.client.connection.size + 100
  let size := s.tasks.running.foldr (fun e n ↦ toWrite e.2 + 1 + n) connection
  16 * (size * size)

/-- Everything goes on until nothing can. -/
def settled (s : ClientSession) : ClientSession := settle advanceAny? s.stepBound s

/-- The server reads until there is nothing more to read, `fuel` times at most, while everything
goes on; the bytes it has read, and whether the stream to it is at its end. -/
def readUpTo (s : ClientSession) : (fuel : Nat) → ClientSession × Bytes × Bool
  | 0 => (s, [], false)
  | fuel + 1 =>
    let sink := s.client.connection.transport.sink
    if sink.unread.isEmpty then (s, [], sink.finished)
    else
      let (t, bytes, atEnd) := readUpTo (s.happen (.deliver sink.unread.length)).settled fuel
      (t, sink.unread ++ bytes, atEnd)

/-- The server reads until there is nothing more to read. -/
def readAll (s : ClientSession) : ClientSession × Bytes × Bool := s.readUpTo s.stepBound

end ClientSession

end LanguageHub
