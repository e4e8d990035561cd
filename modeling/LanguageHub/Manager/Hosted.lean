import LanguageHub.Manager.Session
import LanguageHub.Shell.Machine

/-!
# Managers with their servers

A manager together with the processes of the servers that it has started. Bytes go to and fro,
processes are killed and end, and time passes only when nothing else is left to do.
-/

namespace LanguageHub

/-- A manager and the processes of its servers. -/
structure HostedManager where
  session : ManagerSession
  host : Shell.Host
  /-- The numbers of the processes, by the numbers of their clients. -/
  processes : List Nat := []

namespace HostedManager

/-- Why a command cannot be run, if it cannot. -/
def refusal (s : HostedManager) : Refusal := Shell.refusal s.host.files

/-- Start the processes of the clients that have none yet. -/
def startProcesses (s : HostedManager) : HostedManager :=
  let news := s.session.manager.clients.drop s.processes.length
  news.foldl (fun s c ↦
    let (n, host) := s.host.startServer s.processes.length c.command
    { s with host, processes := s.processes ++ [n] }) s

/-- The numbers of the clients for which a test holds. -/
def clientsWith (s : HostedManager) (test : Client → Bool) : List Nat :=
  (List.range s.session.manager.clients.length).filter fun i ↦
    (s.session.manager.client? i).any test

/-- Kill the processes that are to die. -/
def killProcesses (s : HostedManager) : HostedManager :=
  (s.clientsWith (·.child == some .killed)).foldl (fun s i ↦
    match s.processes[i]? with
    | some n => { s with
        host := s.host.kill n
        session := s.session.happen (.server i .exit) }
    | none => s) s

/-- Show the processes what is in the pipes outside. -/
def lend (s : HostedManager) : Shell.Host :=
  let host := { s.host with
    now := s.session.now
    finished := s.clientsWith (·.connection.transport.sink.finished)
    abandoned := s.clientsWith (!·.connection.transport.hasSource) }
  (List.range s.processes.length).foldl (fun h i ↦
    match s.session.manager.client? i with
    | none => h
    | some c =>
      let t := c.connection.transport
      (h.setPipe (.toServer i) t.sink.unread).setPipe (.fromServer i) t.source.inflow.toBytes)
    host

/-- What the processes have done to a client: they have read from one pipe, written to the other,
closed their ends, and ended. -/
def eventsOf (h : Shell.Host) (i n : Nat) (c : Client) : List ServerEvent :=
  let t := c.connection.transport
  let count := t.sink.unread.length - (h.inPipe (.toServer i)).length
  let piece := (h.inPipe (.fromServer i)).drop t.source.inflow.toBytes.length
  (if count = 0 then [] else [.deliver count]) ++
  (if piece.isEmpty then [] else [.arrive piece]) ++
  (if h.hasWriter (.fromServer i) then [] else [.endInflow .ended]) ++
  (if h.hasReader (.toServer i) then [] else [.breakSink "Broken pipe (os error 32)"]) ++
  (if (h.exited? n).isSome then [.exit] else [])

/-- Take over what the processes have done. -/
def absorb (s : HostedManager) (h : Shell.Host) : HostedManager :=
  let session := (List.range s.processes.length).foldl (fun session i ↦
    match session.manager.client? i, s.processes[i]? with
    | some c, some n =>
      (eventsOf h i n c).foldl (fun session e ↦ session.happen (.server i e)) session
    | _, _ => session) s.session
  { s with session, host := h }

/-- The manager goes on until it waits, and then the processes. -/
def exchange (s : HostedManager) : HostedManager :=
  let s := { s with session := s.session.settled s.refusal }.startProcesses.killProcesses
  s.absorb s.lend.settled

/-- Whether nothing is left to do before time passes. -/
def isQuiet (s : HostedManager) : Bool :=
  (s.session.advanceAny? s.refusal).isNone && s.lend.advanceAny?.isNone &&
    (s.clientsWith (·.child == some .killed)).isEmpty

/-- Everything goes on until nothing can, in at most `rounds`. -/
def settledUpTo : (rounds : Nat) → HostedManager → HostedManager
  | 0, s => s
  | rounds + 1, s =>
    let s := s.exchange
    if s.isQuiet then s else settledUpTo rounds s

/-- Everything goes on until nothing can. -/
def settled (s : HostedManager) : HostedManager := s.settledUpTo 10000

/-- Let time pass up to a moment. -/
def passTo (s : HostedManager) (time : Nat) : HostedManager :=
  { s with session := s.session.happen (.tick ⟨time - s.session.now⟩) }

/-- The next time at which something goes on by itself. -/
def nextDue? (s : HostedManager) : Option Nat :=
  ([s.session.nextDue?, s.host.nextDue?].filterMap id).min?

/-- Everything goes on, and time passes, until a test holds or a moment has come, with at most
`rests` in between. -/
def untilUpTo (test : HostedManager → Bool) (deadline : Option Nat) :
    (rests : Nat) → HostedManager → HostedManager
  | 0, s => s
  | rests + 1, s =>
    let s := s.settled
    if test s then s
    else
      match s.nextDue?, deadline with
      | none, none => s
      | none, some last => (s.passTo last).settled
      | some due, none => untilUpTo test deadline rests (s.passTo due)
      | some due, some last =>
        if last < due then (s.passTo last).settled
        else untilUpTo test deadline rests (s.passTo due)

/-- Everything goes on, and time passes, until a test holds or a moment has come. -/
def until_ (s : HostedManager) (test : HostedManager → Bool) (deadline : Option Nat) :
    HostedManager :=
  s.untilUpTo test deadline 100000

/-- Start operations under the numbers from `n` on. -/
def startAll (s : HostedManager) (n : Nat) (rs : List ManagerRequest) : HostedManager :=
  (rs.zipIdx n).foldl (fun s (r, k) ↦
    { s with session := s.session.start s.refusal k r }.startProcesses) s

/-- The answer of the operation with a number. -/
def answer? (s : HostedManager) (n : Nat) : Option ManagerAnswer := s.session.tasks.answer? n

/-- Perform operations side by side, under the numbers from `n` on, until all have ended. -/
def perform (s : HostedManager) (n : Nat) (rs : List ManagerRequest) : HostedManager :=
  (s.startAll n rs).until_ (fun s ↦ (List.range' n rs.length).all fun k ↦ (s.answer? k).isSome)
    none

/-- Give up a client that is not registered. -/
def giveUp (s : HostedManager) (i : Nat) : HostedManager :=
  { s with session := s.session.mapClient i Client.giveUp }.settled

end HostedManager

end LanguageHub
