import LanguageHub.Manager.Basic

/-!
# Obtaining a client

The way to the client of a language. A registered client that is ready is taken as it is, and one
that is not is taken out of the registry and shut down. If there is none, the way leads through
the gate of the language, behind which a client is looked for once more and then started and
registered. The gate is left at the end of the way, however it ends.
-/

namespace LanguageHub

/-- A way to a client that is being gone. -/
inductive Obtaining where
  /-- A registered client that was not ready is shut down, in front of the gate or behind it. -/
  | evicting (hasGate : Bool) (client : Nat) (shutdown : Shutdown)
  /-- It waits at the gate. -/
  | queued
  /-- It has the gate, and a new client begins. -/
  | connecting (client : Nat) (connecting : Connecting)
  /-- It has the gate and has registered a client; the one that was registered before is shut
  down. -/
  | displacing (client displaced : Nat) (shutdown : Shutdown)
  deriving DecidableEq, Repr

namespace Obtaining

/-- What a way leads to. -/
abbrev Outcome := Except Failure Nat

/-- The way ends, and the gate is left. -/
def finish (a : Agent) (language : String) (hasGate : Bool) (answer : Outcome) (m : Manager) :
    Progress Obtaining Outcome × Manager :=
  (.finished answer, if hasGate then m.leaveGate language a else m)

/-- Start a client, behind the gate. -/
def launch (a : Agent) (refusal : Refusal) (language : String) (m : Manager) :
    Progress Obtaining Outcome × Manager :=
  let command := m.commands.commandFor language
  match command.head?, refusal command with
  | none, _ => finish a language true (.error (.unknownLanguage language)) m
  | some program, some reason => finish a language true (.error (.launch program reason)) m
  | some _, none =>
    let (i, m) := m.launch language command m.limit
    match m.client? i with
    | none => finish a language true (.ok i) m
    | some c =>
      match Connecting.start a (Connecting.greeting 0 (m.uriOf m.root)) c with
      | (.running k, c) => (.running (.connecting i k), m.setClient i c)
      | (.finished (.ok ()), c) => finish a language true (.ok i) (m.setClient i c)
      | (.finished (.error f), c) => finish a language true (.error f) (m.setClient i c)

/-- There is no registered client: go to the gate or, behind it, start a client. -/
def goOn (a : Agent) (refusal : Refusal) (language : String) (hasGate : Bool) (m : Manager) :
    Progress Obtaining Outcome × Manager :=
  if hasGate then launch a refusal language m
  else if m.commands.supports language then (.running .queued, m.joinGate language a)
  else (.finished (.error (.unknownLanguage language)), m)

/-- Look for a registered client. -/
def seek (a : Agent) (now : Nat) (refusal : Refusal) (language : String) (hasGate : Bool)
    (m : Manager) : Progress Obtaining Outcome × Manager :=
  match m.registry.get? language with
  | none => goOn a refusal language hasGate m
  | some i =>
    match m.client? i with
    | none => goOn a refusal language hasGate m
    | some c =>
      if c.isReady then finish a language hasGate (.ok i) m
      else
        let m := { m with registry := m.registry.erase language }
        match Shutdown.start a now c with
        | (.running k, c) => (.running (.evicting hasGate i k), m.setClient i c)
        | (.finished (), c) => goOn a refusal language hasGate (m.setClient i c)

/-- Begin the way to the client of a normalized language. -/
def start (a : Agent) (now : Nat) (refusal : Refusal) (language : String) (m : Manager) :
    Progress Obtaining Outcome × Manager :=
  seek a now refusal language false m

/-- Register a new client. One that was registered before is shut down. -/
def publish (a : Agent) (now : Nat) (language : String) (i : Nat) (m : Manager) :
    Progress Obtaining Outcome × Manager :=
  let displaced := m.registry.get? language
  let m := { m with registry := m.registry.insert language i }
  match displaced with
  | none => finish a language true (.ok i) m
  | some j =>
    match m.client? j with
    | none => finish a language true (.ok i) m
    | some c =>
      match Shutdown.start a now c with
      | (.running k, c) => (.running (.displacing i j k), m.setClient j c)
      | (.finished (), c) => finish a language true (.ok i) (m.setClient j c)

/-- One step of the way to the client of a language. -/
def step? (a : Agent) (now : Nat) (refusal : Refusal) (language : String) (o : Obtaining)
    (m : Manager) : Option (Progress Obtaining Outcome × Manager) :=
  match o with
  | evicting hasGate i k => do
    let c ← m.client? i
    match ← k.step? a now c with
    | (.running k, c) => return (.running (.evicting hasGate i k), m.setClient i c)
    | (.finished (), c) => return goOn a refusal language hasGate (m.setClient i c)
  | queued =>
    if (m.gate language).isHeldBy a then some (seek a now refusal language true m) else none
  | connecting i k => do
    let c ← m.client? i
    match ← k.step? a now c with
    | (.running k, c) => return (.running (.connecting i k), m.setClient i c)
    | (.finished (.ok ()), c) => return publish a now language i (m.setClient i c)
    | (.finished (.error f), c) =>
      return finish a language true (.error f) (m.setClient i c)
  | displacing i j k => do
    let c ← m.client? j
    match ← k.step? a now c with
    | (.running k, c) => return (.running (.displacing i j k), m.setClient j c)
    | (.finished (), c) => return finish a language true (.ok i) (m.setClient j c)

end Obtaining

end LanguageHub
