import LanguageHub.Client.Session
import LanguageHub.Manager.Obtaining

/-!
# Operations on one manager

Any number of operations of one manager, side by side, with a clock and servers that may do
anything. `Step` says what may happen next.
-/

namespace LanguageHub

/-- An operation of a manager. -/
inductive ManagerRequest where
  | opened (language path text : String)
  | changed (language path text : String)
  | saved (language path text : String)
  | completion (language path : String) (position : Position)
  /-- Give the client of a language. -/
  | client (language : String)
  | shutdown
  /-- Shut down a client that was given. -/
  | stop (client : Nat)
  /-- Start a client that is not registered. -/
  | start (language : String) (command : List String)
  deriving DecidableEq, Repr

/-- What a client is obtained for. -/
inductive Goal where
  | document (request : Client.DocumentRequest)
  | completion (uri : String) (position : Position)
  | client
  deriving DecidableEq, Repr

/-- An operation that is going on. -/
inductive ManagerTask where
  | obtaining (language : String) (goal : Goal) (obtaining : Obtaining)
  | document (client : Nat) (call : WriteCall)
  | completion (client : Nat) (call : Call)
  /-- A client is shut down, and then the others of the list. -/
  | shutdown (client : Nat) (shutdown : Shutdown) (others : List Nat)
  | starting (client : Nat) (connecting : Connecting)
  deriving DecidableEq, Repr

/-- The answer of an operation. -/
inductive ManagerAnswer where
  | done (answer : Except Failure Unit)
  | items (answer : Except Failure (List CompletionItem))
  | client (answer : Except Failure Nat)

namespace ManagerTask

/-- A failure as the answer of an operation with the given goal. -/
def refuse (goal : Goal) (f : Failure) : ManagerAnswer :=
  match goal with
  | .document _ => .done (.error f)
  | .completion .. => .items (.error f)
  | .client => .client (.error f)

/-- Use a client for what it was obtained for. -/
def serve (a : Agent) (goal : Goal) (i : Nat) (m : Manager) :
    Progress ManagerTask ManagerAnswer × Manager :=
  match m.client? i with
  | none => (.finished (refuse goal .transportClosed), m)
  | some c =>
    match goal with
    | .client => (.finished (.client (.ok i)), m)
    | .document r =>
      match c.startDocument a r with
      | (.running call, c) => (.running (.document i call), m.setClient i c)
      | (.finished answer, c) => (.finished (.done answer), m.setClient i c)
    | .completion uri position =>
      match c.startCompletion a uri position with
      | (.running call, c) => (.running (.completion i call), m.setClient i c)
      | (.finished answer, c) => (.finished (.items answer), m.setClient i c)

/-- Go on with a way to a client. -/
def follow (a : Agent) (language : String) (goal : Goal) :
    Progress Obtaining Obtaining.Outcome × Manager → Progress ManagerTask ManagerAnswer × Manager
  | (.running o, m) => (.running (.obtaining language goal o), m)
  | (.finished (.ok i), m) => serve a goal i m
  | (.finished (.error f), m) => (.finished (refuse goal f), m)

/-- Begin an operation on the client of a language. -/
def obtain (a : Agent) (now : Nat) (refusal : Refusal) (language : Except Failure String)
    (goal : Goal) (m : Manager) : Progress ManagerTask ManagerAnswer × Manager :=
  match language with
  | .error f => (.finished (refuse goal f), m)
  | .ok language => follow a language goal (Obtaining.start a now refusal language m)

/-- Shut down the clients of a list one after the other. -/
def shutDownAll (a : Agent) (now : Nat) :
    List Nat → Manager → Progress ManagerTask ManagerAnswer × Manager
  | [], m => (.finished (.done (.ok ())), m)
  | i :: others, m =>
    match m.client? i with
    | none => shutDownAll a now others m
    | some c =>
      match Shutdown.start a now c with
      | (.running k, c) => (.running (.shutdown i k others), m.setClient i c)
      | (.finished (), c) => shutDownAll a now others (m.setClient i c)

/-- Start a client that is not registered. -/
def startUnregistered (a : Agent) (refusal : Refusal) (language : String)
    (command : List String) (m : Manager) : Progress ManagerTask ManagerAnswer × Manager :=
  match command.head?, refusal command with
  | none, _ => (.finished (.client (.error (.unknownLanguage language))), m)
  | some program, some reason => (.finished (.client (.error (.launch program reason))), m)
  | some _, none =>
    let (i, m) := m.launch language command none
    match m.client? i with
    | none => (.finished (.client (.ok i)), m)
    | some c =>
      match Connecting.start a (Connecting.greeting 0 (m.uriOf m.directory)) c with
      | (.running k, c) => (.running (.starting i k), m.setClient i c)
      | (.finished answer, c) =>
        (.finished (.client (answer.map fun _ ↦ i)), m.setClient i c)

/-- Begin an operation. -/
def start (a : Agent) (now : Nat) (refusal : Refusal) (r : ManagerRequest) (m : Manager) :
    Progress ManagerTask ManagerAnswer × Manager :=
  match r with
  | .opened language path text =>
    obtain a now refusal (m.route language path) (.document (.opened (m.uriOf path) text)) m
  | .changed language path text =>
    obtain a now refusal (m.route language path) (.document (.changed (m.uriOf path) text)) m
  | .saved language path text =>
    obtain a now refusal (m.route language path) (.document (.saved (m.uriOf path) text)) m
  | .completion language path position =>
    obtain a now refusal (m.route language path) (.completion (m.uriOf path) position) m
  | .client language => obtain a now refusal (.ok (Language.normalize language)) .client m
  | .shutdown =>
    shutDownAll a now (m.registry.entries.map (·.2)) { m with registry := .empty }
  | .stop i => shutDownAll a now [i] m
  | .start language command => startUnregistered a refusal language command m

/-- One step of an operation. -/
def step? (a : Agent) (now : Nat) (refusal : Refusal) (task : ManagerTask) (m : Manager) :
    Option (Progress ManagerTask ManagerAnswer × Manager) :=
  match task with
  | obtaining language goal o =>
    (o.step? a now refusal language m).map (follow a language goal)
  | document i call => do
    let c ← m.client? i
    match ← c.stepNotice? a call with
    | (.running call, c) => return (.running (.document i call), m.setClient i c)
    | (.finished answer, c) => return (.finished (.done answer), m.setClient i c)
  | completion i call => do
    let c ← m.client? i
    match ← c.stepCompletion? a now call with
    | (.running call, c) => return (.running (.completion i call), m.setClient i c)
    | (.finished answer, c) => return (.finished (.items answer), m.setClient i c)
  | shutdown i k others => do
    let c ← m.client? i
    match ← k.step? a now c with
    | (.running k, c) => return (.running (.shutdown i k others), m.setClient i c)
    | (.finished (), c) => return shutDownAll a now others (m.setClient i c)
  | starting i k => do
    let c ← m.client? i
    match ← k.step? a now c with
    | (.running k, c) => return (.running (.starting i k), m.setClient i c)
    | (.finished answer, c) =>
      return (.finished (.client (answer.map fun _ ↦ i)), m.setClient i c)

/-- The time at which a task goes on by itself, if it waits for one. -/
def due? : ManagerTask → Option Nat
  | obtaining _ _ (.evicting _ _ (.announcing due _)) => some due
  | obtaining _ _ (.displacing _ _ (.announcing due _)) => some due
  | obtaining _ _ (.connecting _ (.asking call)) => call.due?
  | completion _ call => call.due?
  | shutdown _ (.announcing due _) _ => some due
  | starting _ (.asking call) => call.due?
  | _ => none

end ManagerTask

/-- A call of a callback for diagnostics, with the mark under which it was installed. -/
structure MarkedCall where
  mark : String
  uri : String
  diagnostics : List Diagnostic
  deriving DecidableEq, Repr

/-- What the server of a client may do. -/
inductive ServerEvent where
  | arrive (piece : Bytes)
  | endInflow (ending : Ending)
  | deliver (count : Nat)
  | breakSink (reason : String)
  | exit

/-- What the server of a client does to it. -/
def ServerEvent.apply (e : ServerEvent) (c : Client) : Client :=
  match e with
  | arrive piece => c.mapConnection (·.arrive piece)
  | endInflow ending => c.mapConnection (·.endInflow ending)
  | deliver count => c.mapConnection (·.deliver count)
  | breakSink reason => c.mapConnection (·.breakSink reason)
  | exit => { c with child := c.child.map fun _ ↦ .exited }

/-- A manager and the operations on it. -/
structure ManagerSession where
  manager : Manager
  /-- The time in nanoseconds. -/
  now : Nat := 0
  tasks : Tasks ManagerTask ManagerAnswer := {}
  /-- The mark of the installed callback for diagnostics, if there is one. -/
  callback : Option String := none
  /-- The calls of callbacks, in order. -/
  callbacks : List MarkedCall := []
  /-- The messages of servers in the log, in order. -/
  log : List LogEntry := []

namespace ManagerSession

/-- Start an operation under a number. -/
def start (s : ManagerSession) (refusal : Refusal) (n : Nat) (r : ManagerRequest) :
    ManagerSession :=
  match ManagerTask.start (.operation n) s.now refusal r s.manager with
  | (.running task, manager) => { s with manager, tasks := s.tasks.start n task }
  | (.finished answer, manager) => { s with manager, tasks := s.tasks.finish n answer }

/-- The operation with the given number takes a step, if it can. -/
def advance? (s : ManagerSession) (refusal : Refusal) (n : Nat) : Option ManagerSession := do
  let task ← s.tasks.state? n
  match ← task.step? (.operation n) s.now refusal s.manager with
  | (.running task, manager) => return { s with manager, tasks := s.tasks.update n task }
  | (.finished answer, manager) => return { s with manager, tasks := s.tasks.finish n answer }

/-- Act on an event of the client of a language: the installed callback is called, and a message
goes into the log. -/
def observe (s : ManagerSession) (language : String) : ClientEvent → ManagerSession
  | .published uri diagnostics =>
    match s.callback with
    | some mark => { s with callbacks := s.callbacks ++ [⟨mark, uri, diagnostics⟩] }
    | none => s
  | .message level shown message =>
    { s with log := s.log ++ [⟨level, language, shown, message⟩] }

/-- The reading task of a client takes a step, if it can. -/
def advanceReading? (s : ManagerSession) (i : Nat) : Option ManagerSession := do
  let c ← s.manager.client? i
  match ← c.stepReading? with
  | (c, none) => return { s with manager := s.manager.setClient i c }
  | (c, some event) =>
    return { s with manager := s.manager.setClient i c }.observe c.language event

/-- Something takes a step, if it can: the tasks that read come first, then the operations in the
order in which they were started. -/
def advanceAny? (refusal : Refusal) (s : ManagerSession) : Option ManagerSession :=
  match (List.range s.manager.clients.length).findSome? s.advanceReading? with
  | some t => some t
  | none => s.tasks.numbers.findSome? (s.advance? refusal)

/-- What a server, the clock or the owner of the manager may do. -/
inductive Event where
  | server (client : Nat) (event : ServerEvent)
  | tick (time : Duration)
  | setCallback (mark : Option String)

/-- Change the client with a number. -/
def mapClient (s : ManagerSession) (i : Nat) (f : Client → Client) : ManagerSession :=
  match s.manager.client? i with
  | some c => { s with manager := s.manager.setClient i (f c) }
  | none => s

/-- What an event leads to. -/
def happen (s : ManagerSession) : Event → ManagerSession
  | .server i e => s.mapClient i e.apply
  | .tick time => { s with now := s.now + time.nanos }
  | .setCallback mark => { s with callback := mark }

/-- The numbers that have been given to operations. -/
def numbers (s : ManagerSession) : List Nat := s.tasks.numbers ++ s.tasks.answers.map (·.1)

/-- The clients that the manager has given out. -/
def given (s : ManagerSession) : List Nat := s.tasks.answers.filterMap fun
  | (_, .client (.ok i)) => some i
  | _ => none

/-- Whether an operation may be started: only a client that was given is shut down. -/
def Admits (s : ManagerSession) : ManagerRequest → Prop
  | .stop i => i ∈ s.given
  | _ => True

/-- What may happen next. -/
inductive Step : ManagerSession → ManagerSession → Prop where
  | start (s : ManagerSession) (refusal : Refusal) (n : Nat) (r : ManagerRequest)
      (fresh : n ∉ s.numbers) (admitted : s.Admits r) : Step s (s.start refusal n r)
  | advance {s t : ManagerSession} (refusal : Refusal) (n : Nat)
      (h : s.advance? refusal n = some t) : Step s t
  | read {s t : ManagerSession} (i : Nat) (h : s.advanceReading? i = some t) : Step s t
  | event (s : ManagerSession) (e : Event) : Step s (s.happen e)

/-- What can come of a session. -/
inductive Reachable (s : ManagerSession) : ManagerSession → Prop where
  | refl : Reachable s s
  | step {t u : ManagerSession} (h : Reachable s t) (next : Step t u) : Reachable s u

/-- How many bytes a task has to write. -/
def toWrite : ManagerTask → Nat
  | .obtaining .. => 1000
  | .document _ call => call.left
  | .completion _ ⟨_, _, _, .sending call⟩ => call.left
  | _ => 0

/-- More steps than can be taken before everything waits. -/
def stepBound (s : ManagerSession) : Nat :=
  let connections := s.manager.clients.foldr (fun c n ↦ c.client.connection.size + 1 + n) 1000
  let size := s.tasks.running.foldr (fun e n ↦ toWrite e.2 + 1 + n) connections
  16 * (size * size)

/-- Everything goes on until nothing can. -/
def settled (s : ManagerSession) (refusal : Refusal) : ManagerSession :=
  settle (advanceAny? refusal) s.stepBound s

/-- The next time at which a task goes on by itself. -/
def nextDue? (s : ManagerSession) : Option Nat :=
  (s.tasks.running.filterMap fun e ↦ e.2.due?).min?

end ManagerSession

end LanguageHub
