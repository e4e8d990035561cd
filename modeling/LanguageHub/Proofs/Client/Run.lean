import LanguageHub.Client.Session
import LanguageHub.Proofs.Connection.Outgoing

/-!
# Runs of a client

A run of a session with its history: the requests and notifications that the operations have begun,
what the task that reads has decoded, and what went on at the stream to the server. Beside it stand
the document operations that were accepted.
-/

namespace LanguageHub

/-! ### What the steps show -/

/-- The write that a handshake is at. -/
def Connecting.writing? : Connecting → Option WriteCall
  | asking k => k.writing?
  | confirming _ call => some call
  | abandoning _ _ => none

/-- The write that a shutdown is at. -/
def Shutdown.writing? : Shutdown → Option WriteCall
  | announcing _ call => some call
  | terminating _ => none

namespace ClientTask

/-- The write that an operation is at. -/
def writing? : ClientTask → Option WriteCall
  | .connect k => k.writing?
  | .document call => some call
  | .completion k => k.writing?
  | .shutdown k => k.writing?

/-- The operation ends the client, or is about to. -/
def Ending : ClientTask → Prop
  | .connect (.abandoning _ _) | .shutdown _ => True
  | _ => False

/-- What a handshake shows when the first request has this outcome: if the server has accepted, it
is told that the handshake is complete. -/
def outcomeShows (n : Nat) (outcome : Outcome) : History :=
  match outcome.bind Connecting.serverOf with
  | .ok _ => Connection.noticeShows n .handshakeDone
  | .error _ => []

/-- What the start of an operation shows. -/
def startShows (n : Nat) (r : ClientRequest) (c : Client) : History :=
  match r with
  | .connect root =>
    c.connection.callShows n (Connecting.greeting 0 (Uri.pathToUri "/" root))
  | .document r =>
    if c.isReady then Connection.noticeShows n (c.documentNotice r).1 else []
  | .completion uri position =>
    if c.isReady then c.connection.callShows n (.completion uri position) else []
  | .shutdown =>
    match c.phase with
    | .shuttingDown | .terminated => []
    | _ => Connection.noticeShows n .shutdown

/-- What a step of an operation shows: something of its write, and what it begins or gives up. -/
def shows (n now : Nat) (task : ClientTask) (c : Client) : History :=
  let a := Agent.operation n
  (WriteCall.showsOf a task.writing? c.connection.transport).map .wire ++
    match task with
    | .connect (.asking k) =>
      match k.step? a now c.connection with
      | some (.finished outcome, _) => outcomeShows n outcome
      | _ => []
    | .shutdown (.announcing _ call) =>
      match c.stepNotice? a call with
      | none => (call.abandonShows a).map .wire
      | some _ => []
    | _ => []

end ClientTask

namespace ClientSession

/-- The writes that are going on. -/
def writers (s : ClientSession) : Writers
  | .reading => s.client.connection.replying?
  | .operation n => (s.tasks.state? n).bind ClientTask.writing?

/-- What the start of an operation shows. -/
def startShows (s : ClientSession) (n : Nat) (r : ClientRequest) : History :=
  ClientTask.startShows n r s.client

/-- What a step of an operation shows. -/
def advanceShows (s : ClientSession) (n : Nat) : History :=
  match s.tasks.state? n with
  | some task => task.shows n s.now s.client
  | none => []

/-- The document operation that a request is, if it is accepted. -/
def accepts (s : ClientSession) : ClientRequest → List Client.DocumentRequest
  | .document r => if s.client.isReady then [r] else []
  | _ => []

/-- What can come of a session, with the history on the way and the document operations that were
accepted, in the order in which they were started. -/
inductive Run (s₀ : ClientSession) :
    History → List Client.DocumentRequest → ClientSession → Prop where
  | refl : Run s₀ [] [] s₀
  | start {h : History} {accepted : List Client.DocumentRequest} {s : ClientSession}
      (run : Run s₀ h accepted s) (n : Nat) (r : ClientRequest) (fresh : n ∉ s.numbers)
      (admitted : s.Admits r) :
      Run s₀ (h ++ s.startShows n r) (accepted ++ s.accepts r) (s.start n r)
  | advance {h : History} {accepted : List Client.DocumentRequest} {s t : ClientSession}
      (run : Run s₀ h accepted s) (n : Nat) (step : s.advance? n = some t) :
      Run s₀ (h ++ s.advanceShows n) accepted t
  | read {h : History} {accepted : List Client.DocumentRequest} {s t : ClientSession}
      (run : Run s₀ h accepted s) (step : s.advanceReading? = some t) :
      Run s₀ (h ++ s.client.connection.readingShows) accepted t
  | callbackFails {h : History} {accepted : List Client.DocumentRequest} {s t : ClientSession}
      (run : Run s₀ h accepted s) (step : s.advanceReading? = some t)
      (called : t.callbacks ≠ s.callbacks) :
      Run s₀ (h ++ s.client.connection.readingShows) accepted t.endReading
  | event {h : History} {accepted : List Client.DocumentRequest} {s : ClientSession}
      (run : Run s₀ h accepted s) (e : Event) : Run s₀ h accepted (s.happen e)

variable {s₀ s t : ClientSession} {h : History} {accepted : List Client.DocumentRequest} {n : Nat}

theorem Reachable.trans {u : ClientSession} (first : Reachable s t) (second : Reachable t u) :
    Reachable s u := by
  induction second with
  | refl => exact first
  | step _ next ih => exact ih.step next

/-- The end of a run can come of its beginning. -/
theorem Run.reachable (run : Run s₀ h accepted s) : Reachable s₀ s := by
  induction run with
  | refl => exact .refl
  | start _ n r fresh admitted ih => exact ih.step (.start _ n r fresh admitted)
  | advance _ n step ih => exact ih.step (.advance n step)
  | read _ step ih => exact ih.step (.read step)
  | callbackFails _ step called ih => exact ih.step (.callbackFails step called)
  | event _ e ih => exact ih.step (.event _ e)

/-- What can come of a session is the end of a run. -/
theorem Reachable.run (reachable : Reachable s₀ s) : ∃ h accepted, Run s₀ h accepted s := by
  induction reachable with
  | refl => exact ⟨[], [], .refl⟩
  | step _ next ih =>
    obtain ⟨h, accepted, run⟩ := ih
    cases next with
    | start n r fresh admitted => exact ⟨_, _, run.start n r fresh admitted⟩
    | advance n step => exact ⟨_, _, run.advance n step⟩
    | read step => exact ⟨_, _, run.read step⟩
    | callbackFails step called => exact ⟨_, _, run.callbackFails step called⟩
    | event e => exact ⟨_, _, run.event e⟩

/-- A run goes on until nothing can. -/
theorem Run.settle (run : Run s₀ h accepted s) (fuel : Nat) :
    ∃ more, Run s₀ more accepted (LanguageHub.settle advanceAny? fuel s) := by
  induction fuel generalizing h s with
  | zero => exact ⟨h, run⟩
  | succ fuel ih =>
    simp only [LanguageHub.settle]
    cases hstep : s.advanceAny? with
    | none => exact ⟨h, run⟩
    | some t =>
      simp only [advanceAny?] at hstep
      split at hstep
      · next hread =>
        cases hstep
        exact ih (run.read hread)
      · obtain ⟨n, _, hadvance⟩ := List.exists_of_findSome?_eq_some hstep
        exact ih (run.advance n hadvance)

end ClientSession

end LanguageHub
