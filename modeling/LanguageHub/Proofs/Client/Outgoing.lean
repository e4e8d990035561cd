import LanguageHub.Proofs.Client.Operations
import LanguageHub.Proofs.Client.Phases
import LanguageHub.Proofs.Client.Run

/-!
# What goes out from a client

The operations of a client and the task that reads share the stream to the server in good order, on
every run. Nothing that was asked for is lost unless the client ends.
-/

namespace LanguageHub

variable {a : Agent} {n now : Nat} {c d : Client} {ws : Writers} {disturbed : Prop}

/-! ### One step of an operation -/

/-- The start of an ending leaves the streams alone. -/
theorem Termination.transport_start (c : Client) :
    (Termination.start c).2.connection.transport = c.connection.transport :=
  Connection.transport_startClosing c.connection

/-- A step of an ending may let go of the stream. -/
theorem Termination.writes_of_step? {k : Termination} {p : Progress Termination Unit}
    (step : k.step? c = some (p, d)) :
    Writes True c.connection.transport ws [] d.connection.transport ws := by
  cases k with
  | closing k =>
    simp only [Termination.step?] at step
    split at step
    · cases step
    · next hstep =>
      cases step
      exact Connection.writes_stepClosing? hstep
    · next hstep =>
      cases step
      exact Connection.writes_stepClosing? hstep
  | stoppingChild =>
    simp only [Termination.step?] at step
    split at step <;> cases step <;> exact .refl

/-- A step of a notification. -/
theorem Client.writes_stepNotice? (disturbed : Prop) {call : WriteCall}
    {p : Progress WriteCall (Except Failure Unit)} (writing : ws a = some call)
    (step : c.stepNotice? a call = some (p, d)) :
    Writes disturbed c.connection.transport ws (call.shows a c.connection.transport)
      d.connection.transport (Function.update ws a (p.writing? some)) := by
  simp only [stepNotice?, Option.map_eq_some_iff, Prod.exists] at step
  obtain ⟨q, connection, hstep, he⟩ := step
  cases he
  exact Connection.writes_stepNotice? writing hstep

namespace Client

/-- A document operation that begins joins the line of writers if it is accepted. -/
theorem writes_startDocument {r : DocumentRequest} {p : Progress WriteCall (Except Failure Unit)}
    (idle : ws (.operation n) = none) (begins : c.startDocument (.operation n) r = (p, d)) :
    Writes disturbed c.connection.transport ws
      (History.events (if c.isReady then Connection.noticeShows n (c.documentNotice r).1 else []))
      d.connection.transport (Function.update ws (.operation n) (p.writing? some)) := by
  unfold startDocument refusal? at begins
  cases hready : c.isReady with
  | false =>
    rw [hready] at begins
    cases begins
    rw [Progress.writing?, Function.update_eq_self_iff.mpr idle.symm]
    exact .refl
  | true =>
    rw [hready] at begins
    cases r <;> cases begins <;> exact Connection.writes_startNotice n _ c.connection idle

/-- A completion request that begins joins the line of writers if it is accepted. -/
theorem writes_startCompletion {uri : String} {position : Position}
    {p : Progress Call (Except Failure (List CompletionItem))} (idle : ws (.operation n) = none)
    (begins : c.startCompletion (.operation n) uri position = (p, d)) :
    Writes disturbed c.connection.transport ws
      (History.events
        (if c.isReady then c.connection.callShows n (.completion uri position) else []))
      d.connection.transport (Function.update ws (.operation n) (p.writing? Call.writing?)) := by
  unfold startCompletion refusal? at begins
  cases hready : c.isReady with
  | false =>
    rw [hready] at begins
    cases begins
    rw [Progress.writing?, Function.update_eq_self_iff.mpr idle.symm]
    exact .refl
  | true =>
    rw [hready] at begins
    simp only [if_true] at begins
    split at begins <;> next hstart => cases begins; exact Connection.writes_startCall idle hstart

/-- A step of a completion request. -/
theorem writes_stepCompletion? (disturbed : Prop) {k : Call}
    {p : Progress Call (Except Failure (List CompletionItem))} (writing : ws a = k.writing?)
    (step : c.stepCompletion? a now k = some (p, d)) :
    Writes disturbed c.connection.transport ws
      (WriteCall.showsOf a k.writing? c.connection.transport) d.connection.transport
      (Function.update ws a (p.writing? Call.writing?)) := by
  unfold stepCompletion? at step
  split at step
  · cases step
  · next hstep =>
    cases step
    exact Connection.writes_stepCall? writing hstep
  · next hstep =>
    cases step
    exact Connection.writes_stepCall? writing hstep

end Client

namespace Connecting

variable {p : Progress Connecting (Except Failure Unit)}

/-- The failure of a handshake leaves the streams alone. -/
theorem writes_abandon {f : Failure} (idle : ws (.operation n) = none)
    (fails : abandon f c = (p, d)) :
    Writes disturbed c.connection.transport ws [] d.connection.transport
      (Function.update ws (.operation n) (p.writing? writing?)) := by
  obtain rfl : p = (abandon f c).1 := by rw [fails]
  obtain rfl : d = (abandon f c).2 := by rw [fails]
  have streams : (abandon f c).2.connection.transport = c.connection.transport :=
    Termination.transport_start c
  rw [streams, Function.update_eq_self_iff.mpr idle.symm]
  exact .refl

/-- What follows the outcome of the first request joins the line of writers if the server has
accepted. -/
theorem writes_afterOutcome {outcome : Outcome} (idle : ws (.operation n) = none)
    (after : afterOutcome (.operation n) outcome c = (p, d)) :
    Writes disturbed c.connection.transport ws
      (History.events (ClientTask.outcomeShows n outcome)) d.connection.transport
      (Function.update ws (.operation n) (p.writing? writing?)) := by
  unfold afterOutcome at after
  unfold ClientTask.outcomeShows
  cases hserver : outcome.bind serverOf with
  | error f =>
    rw [hserver] at after
    exact writes_abandon idle after
  | ok server =>
    rw [hserver] at after
    cases after
    exact Connection.writes_startNotice n .handshakeDone c.connection idle

/-- The start of a handshake joins the line of writers, unless the call is refused at once. -/
theorem writes_start {greeting : Request} (idle : ws (.operation n) = none)
    (begins : start (.operation n) greeting c = (p, d)) :
    Writes disturbed c.connection.transport ws
      (History.events (c.connection.callShows n greeting)) d.connection.transport
      (Function.update ws (.operation n) (p.writing? writing?)) := by
  unfold start at begins
  split at begins
  · next hstart =>
    cases begins
    exact Connection.writes_startCall idle hstart
  · next outcome connection hstart =>
    have refused : Writes disturbed _ ws _ _ _ := Connection.writes_startCall idle hstart
    obtain ⟨-, f, rfl⟩ := Call.spec_of_refused hstart
    rw [← List.append_nil (History.events _)]
    exact refused.goOn (writes_afterOutcome (Function.update_self ..) begins)

/-- A step of a handshake. -/
theorem writes_of_step? {k : Connecting} (writing : ws (.operation n) = k.writing?)
    (step : k.step? (.operation n) now c = some (p, d)) :
    Writes (ClientTask.connect k).Ending c.connection.transport ws
      (History.events ((ClientTask.connect k).shows n now c)) d.connection.transport
      (Function.update ws (.operation n) (p.writing? writing?)) := by
  cases k with
  | asking call =>
    simp only [step?] at step
    simp only [ClientTask.shows, ClientTask.writing?, writing?, History.events_append,
      History.events_map_wire]
    split at step
    · cases step
    · next hstep =>
      cases step
      rw [hstep]
      exact (Connection.writes_stepCall? writing hstep).trans .refl
    · next outcome connection hstep =>
      have ends : Writes (ClientTask.connect (asking call)).Ending _ _ _ _ _ :=
        Connection.writes_stepCall? writing hstep
      rw [hstep]
      exact ends.goOn (writes_afterOutcome (Function.update_self ..) (Option.some.inj step))
  | confirming server call =>
    simp only [step?] at step
    simp only [ClientTask.shows, ClientTask.writing?, writing?, History.events_map_wire,
      List.append_nil]
    split at step
    · cases step
    · next hstep =>
      cases step
      exact Client.writes_stepNotice? _ writing hstep
    · next hstep =>
      cases step
      exact (Client.writes_stepNotice? _ writing hstep).thenQuiet rfl rfl id rfl rfl
    · next f e hstep =>
      rw [← List.append_nil (WriteCall.showsOf ..)]
      exact (Client.writes_stepNotice? _ writing hstep).goOn
        (writes_abandon (Function.update_self ..) (Option.some.inj step))
  | abandoning f k =>
    have same : Function.update ws (.operation n) none = ws :=
      Function.update_eq_self_iff.mpr writing.symm
    simp only [step?] at step
    split at step
    · cases step
    · next hstep =>
      cases step
      simp only [Progress.writing?, writing?, same]
      exact Termination.writes_of_step? hstep
    · next e hstep =>
      cases step
      simp only [Progress.writing?, same]
      have ends : Writes True _ ws _ _ _ := Termination.writes_of_step? hstep
      exact ends.trans (.single (.quiet rfl rfl id) (.inl trivial))

end Connecting

namespace Shutdown

variable {p : Progress Shutdown Unit}

/-- The start of the ending leaves the streams alone. -/
theorem writes_terminate (idle : ws (.operation n) = none) (ends : terminate c = (p, d)) :
    Writes disturbed c.connection.transport ws [] d.connection.transport
      (Function.update ws (.operation n) (p.writing? writing?)) := by
  obtain rfl : p = (terminate c).1 := by rw [ends]
  obtain rfl : d = (terminate c).2 := by rw [ends]
  have streams : (terminate c).2.connection.transport = c.connection.transport :=
    Termination.transport_start c
  rw [streams, Function.update_eq_self_iff.mpr idle.symm]
  exact .refl

/-- A step of a shutdown. -/
theorem writes_of_step? {k : Shutdown} (writing : ws (.operation n) = k.writing?)
    (step : k.step? (.operation n) now c = some (p, d)) :
    Writes True c.connection.transport ws
      (History.events ((ClientTask.shutdown k).shows n now c)) d.connection.transport
      (Function.update ws (.operation n) (p.writing? writing?)) := by
  cases k with
  | announcing due call =>
    simp only [step?] at step
    simp only [ClientTask.shows, ClientTask.writing?, writing?, History.events_append,
      History.events_map_wire]
    split at step
    · next e hstep =>
      cases step
      rw [hstep]
      exact (Client.writes_stepNotice? _ writing hstep).trans .refl
    · next e hstep =>
      rw [hstep]
      exact (Client.writes_stepNotice? _ writing hstep).goOn
        (writes_terminate (Function.update_self ..) (Option.some.inj step))
    · next hstep =>
      split at step
      · have stuck : call.step? (.operation n) c.connection.transport = none := by
          simpa [Client.stepNotice?, Connection.stepNotice?] using hstep
        rw [hstep, WriteCall.showsOf, WriteCall.shows_of_stuck stuck, List.nil_append,
          History.events_map_wire, ← List.append_nil (WriteCall.abandonShows ..)]
        have gives : Writes True c.connection.transport ws _ _ _ :=
          .single (.giveUp writing) (.inl trivial)
        exact gives.goOn (writes_terminate (Function.update_self ..) (Option.some.inj step))
      · cases step
  | terminating k =>
    have same : Function.update ws (.operation n) none = ws :=
      Function.update_eq_self_iff.mpr writing.symm
    simp only [step?, Option.map_eq_some_iff, Prod.exists] at step
    obtain ⟨q, e, hstep, he⟩ := step
    have ends : Writes True _ ws _ _ _ := Termination.writes_of_step? hstep
    cases q with
    | running k =>
      cases he
      simp only [Progress.writing?, writing?, same]
      exact ends
    | finished =>
      cases he
      simp only [Progress.writing?, same]
      exact ends

end Shutdown

namespace ClientTask

variable {p : Progress ClientTask ClientAnswer}

/-- The start of an operation joins the line of writers, or leaves the streams alone. -/
theorem writes_start {r : ClientRequest} (idle : ws (.operation n) = none)
    (begins : start n now r c = (p, d)) :
    Writes disturbed c.connection.transport ws (History.events (startShows n r c))
      d.connection.transport (Function.update ws (.operation n) (p.writing? writing?)) := by
  have same : Function.update ws (.operation n) none = ws :=
    Function.update_eq_self_iff.mpr idle.symm
  cases r with
  | connect root =>
    simp only [start] at begins
    split at begins <;> next hstart => cases begins; exact Connecting.writes_start idle hstart
  | document r =>
    simp only [start] at begins
    split at begins <;> next hstart => cases begins; exact Client.writes_startDocument idle hstart
  | completion uri position =>
    simp only [start] at begins
    split at begins <;>
      next hstart => cases begins; exact Client.writes_startCompletion idle hstart
  | shutdown =>
    simp only [start, Shutdown.start] at begins
    simp only [startShows]
    cases hphase : c.phase with
    | starting | ready =>
      rw [hphase] at begins
      cases begins
      exact Connection.writes_startNotice n .shutdown c.connection idle
    | shuttingDown | terminated =>
      rw [hphase] at begins
      cases begins
      rw [Progress.writing?, same]
      exact .refl

/-- A step of an operation. -/
theorem writes_of_step? {task : ClientTask} (writing : ws (.operation n) = task.writing?)
    (step : task.step? n now c = some (p, d)) :
    Writes task.Ending c.connection.transport ws (History.events (task.shows n now c))
      d.connection.transport (Function.update ws (.operation n) (p.writing? writing?)) := by
  cases task with
  | connect k =>
    simp only [step?, Option.map_eq_some_iff, Prod.exists] at step
    obtain ⟨q, e, hstep, he⟩ := step
    have writes := Connecting.writes_of_step? writing hstep
    cases q <;> cases he <;> exact writes
  | document call =>
    simp only [step?, Option.map_eq_some_iff, Prod.exists] at step
    obtain ⟨q, e, hstep, he⟩ := step
    simp only [shows, ClientTask.writing?, List.append_nil, History.events_map_wire]
    have writes := Client.writes_stepNotice? (Ending (.document call)) writing hstep
    cases q <;> cases he <;> exact writes
  | completion k =>
    simp only [step?, Option.map_eq_some_iff, Prod.exists] at step
    obtain ⟨q, e, hstep, he⟩ := step
    simp only [shows, ClientTask.writing?, List.append_nil, History.events_map_wire]
    have writes := Client.writes_stepCompletion? (Ending (.completion k)) writing hstep
    cases q <;> cases he <;> exact writes
  | shutdown k =>
    simp only [step?, Option.map_eq_some_iff, Prod.exists] at step
    obtain ⟨q, e, hstep, he⟩ := step
    have writes := Shutdown.writes_of_step? writing hstep
    cases q <;> cases he <;> exact writes

end ClientTask

/-! ### One step of a session -/

namespace ClientSession

variable {s t : ClientSession} {h : History} {accepted : List Client.DocumentRequest}

/-- A fresh number has no task. -/
theorem state?_of_fresh (fresh : n ∉ s.numbers) : s.tasks.state? n = none :=
  Tasks.state?_eq_none_iff.mpr fun hn ↦ fresh (List.mem_append_left _ hn)

/-- A fresh number has no answer. -/
theorem answer?_of_fresh (fresh : n ∉ s.numbers) : s.tasks.answer? n = none :=
  Tasks.answer?_eq_none_iff.mpr fun hn ↦ fresh (List.mem_append_right _ hn)

/-- The writers of a session of which one operation has gone on. -/
private theorem writers_eq_update {call : Option WriteCall}
    (reading : t.client.connection.reading = s.client.connection.reading)
    (tasks : ∀ m, (t.tasks.state? m).bind ClientTask.writing? =
      if m = n then call else (s.tasks.state? m).bind ClientTask.writing?) :
    t.writers = Function.update s.writers (.operation n) call := by
  funext a
  cases a with
  | reading => simp only [writers, Connection.replying?, reading]; rfl
  | operation m =>
    by_cases hm : m = n
    · subst hm
      rw [Function.update_self]
      exact (tasks m).trans (if_pos rfl)
    · rw [Function.update_of_ne (fun h ↦ hm (Agent.operation.inj h))]
      exact (tasks m).trans (if_neg hm)

/-- What the start of an operation makes of a session. -/
theorem start_spec (s : ClientSession) (n : Nat) (r : ClientRequest) :
    ∃ p, ClientTask.start n s.now r s.client = (p, (s.start n r).client) ∧
      (s.start n r).now = s.now ∧
      (s.start n r).tasks = match p with
        | .running task => s.tasks.start n task
        | .finished answer => s.tasks.finish n answer := by
  unfold start
  split <;> next hstart => exact ⟨_, hstart, rfl, rfl⟩

/-- What a step of an operation makes of a session. -/
theorem advance_spec (step : s.advance? n = some t) :
    ∃ task p, s.tasks.state? n = some task ∧
      task.step? n s.now s.client = some (p, t.client) ∧ t.now = s.now ∧
      t.tasks = match p with
        | .running next => s.tasks.update n next
        | .finished answer => s.tasks.finish n answer := by
  simp only [advance?, Option.bind_eq_bind, Option.bind_eq_some_iff, Option.pure_def,
    Prod.exists] at step
  obtain ⟨task, going, p, c, hstep, ht⟩ := step
  refine ⟨task, p, going, ?_⟩
  cases p <;> cases ht <;> exact ⟨hstep, rfl, rfl⟩

/-- The callback and the log are no part of a client. -/
private theorem observe_spec (s : ClientSession) (e : ClientEvent) :
    (s.observe e).client = s.client ∧ (s.observe e).tasks = s.tasks ∧
      (s.observe e).now = s.now := by
  cases e with
  | published uri diagnostics =>
    simp only [observe]
    split <;> exact ⟨rfl, rfl, rfl⟩
  | message => exact ⟨rfl, rfl, rfl⟩

/-- What a step of the task that reads makes of a session. -/
theorem read_spec (step : s.advanceReading? = some t) :
    (∃ notice, s.client.connection.ReadingStep s.client.connection.readingShows
      t.client.connection notice) ∧ t.tasks = s.tasks ∧ t.now = s.now ∧
      Client.Stays s.client t.client ∧ t.client.versions = s.client.versions := by
  unfold advanceReading? at step
  -- A notification changes nothing but the diagnostics that are kept.
  have hreads : ∀ c event, s.client.stepReading? = some (c, event) →
      (∃ notice, s.client.connection.ReadingStep s.client.connection.readingShows c.connection
        notice) ∧ c.versions = s.client.versions := by
    intro c event hstep
    unfold Client.stepReading? at hstep
    split at hstep
    · cases hstep
    · next hconnection =>
      cases hstep
      exact ⟨⟨none, Connection.readingStep_of_stepReading? hconnection⟩, rfl⟩
    · next notice hconnection =>
      cases hstep
      have reads := Connection.readingStep_of_stepReading? hconnection
      cases notice <;> exact ⟨⟨_, reads⟩, rfl⟩
  split at step
  · cases step
  · next c hstep =>
    cases step
    obtain ⟨reads, versions⟩ := hreads c none hstep
    exact ⟨reads, rfl, rfl, Client.stays_of_stepReading? hstep, versions⟩
  · next c event hstep =>
    obtain ⟨reads, versions⟩ := hreads c (some event) hstep
    obtain ⟨hclient, htasks, hnow⟩ := observe_spec { s with client := c } event
    cases step
    rw [hclient]
    exact ⟨reads, htasks, hnow, Client.stays_of_stepReading? hstep, versions⟩

/-- The start of an operation, told as steps of writers. -/
theorem writes_start (disturbed : Prop) (fresh : n ∉ s.numbers) (r : ClientRequest) :
    Writes disturbed s.client.connection.transport s.writers (s.startShows n r).events
      (s.start n r).client.connection.transport (s.start n r).writers := by
  have hnone := state?_of_fresh fresh
  obtain ⟨p, hstart, -, htasks⟩ := start_spec s n r
  have moves := ClientTask.moves_start n s.now r s.client
  rw [hstart] at moves
  have hwriters : (s.start n r).writers =
      Function.update s.writers (.operation n) (p.writing? ClientTask.writing?) := by
    refine writers_eq_update moves.connection.spares.reading fun m ↦ ?_
    rw [htasks]
    cases p with
    | running task =>
      simp only [Tasks.state?_start (Tasks.state?_eq_none_iff.mp hnone)]
      split <;> rfl
    | finished answer =>
      simp only [Tasks.state?_finish]
      split <;> rfl
  rw [hwriters]
  exact ClientTask.writes_start (by simp only [writers, hnone, Option.bind_none]) hstart

/-- A step of an operation, told as steps of writers. -/
theorem writes_advance {task : ClientTask} (going : s.tasks.state? n = some task)
    (step : s.advance? n = some t) :
    Writes task.Ending s.client.connection.transport s.writers (s.advanceShows n).events
      t.client.connection.transport t.writers := by
  obtain ⟨task', p, going', hstep, -, htasks⟩ := advance_spec step
  obtain rfl : task' = task := Option.some.inj (going'.symm.trans going)
  have hwriters : t.writers =
      Function.update s.writers (.operation n) (p.writing? ClientTask.writing?) := by
    refine writers_eq_update (ClientTask.keeps_of_step? hstep).connection.spares.reading fun m ↦ ?_
    rw [htasks]
    cases p with
    | running next =>
      simp only [Tasks.state?_update, going]
      split <;> rfl
    | finished answer =>
      simp only [Tasks.state?_finish]
      split <;> rfl
  rw [hwriters, advanceShows, going]
  exact ClientTask.writes_of_step? (by simp only [writers, going, Option.bind_some]) hstep

/-- A step of the task that reads, told as steps of writers. -/
theorem writes_read {log : List WireEvent}
    (orderly : Orderly s.client.connection.transport s.writers log)
    (step : s.advanceReading? = some t) :
    Writes (s.client.connection.stopping = true) s.client.connection.transport s.writers
      s.client.connection.readingShows.events t.client.connection.transport t.writers := by
  obtain ⟨⟨notice, hstep⟩, htasks, -, -, -⟩ := read_spec step
  have hwriters : t.writers =
      Function.update s.writers .reading t.client.connection.replying? := by
    funext a
    cases a with
    | reading => rw [Function.update_self]; rfl
    | operation m =>
      rw [Function.update_of_ne (fun h ↦ Agent.noConfusion h)]
      simp only [writers, htasks]
  rw [hwriters]
  exact hstep.toWrites rfl (orderly.inLine .reading)

/-- The task that reads has nothing to do with the process. -/
theorem child_of_read (step : s.advanceReading? = some t) : t.client.child = s.client.child := by
  have hchild : ∀ c event, s.client.stepReading? = some (c, event) →
      c.child = s.client.child := by
    intro c event hstep
    unfold Client.stepReading? at hstep
    split at hstep
    · cases hstep
    · cases hstep
      rfl
    · next notice _ =>
      cases hstep
      cases notice <;> rfl
  unfold advanceReading? at step
  split at step
  · cases step
  · next c hstep =>
    cases step
    exact hchild c none hstep
  · next c event hstep =>
    obtain ⟨hclient, -, -⟩ := observe_spec { s with client := c } event
    cases step
    rw [hclient]
    exact hchild c (some event) hstep

/-- When the callback was called, the task that reads goes on with the next frame. -/
theorem replying?_of_called (step : s.advanceReading? = some t)
    (called : t.callbacks ≠ s.callbacks) : t.client.connection.replying? = none := by
  unfold advanceReading? at step
  split at step
  · cases step
  · cases step
    exact absurd rfl called
  · next c event hstep =>
    obtain ⟨hclient, -, -⟩ := observe_spec { s with client := c } event
    cases step
    rw [hclient]
    unfold Client.stepReading? at hstep
    split at hstep
    · cases hstep
    · cases hstep
    · next connection notice hconnection =>
      have fetches : connection.replying? = none := by
        have reads := Connection.readingStep_of_stepReading? hconnection
        generalize s.client.connection.readingShows = shown at reads
        cases reads with
        | passes => rfl
      cases hstep
      cases notice <;> exact fetches

/-- When the task that reads ends while it does not write, no writer does anything. -/
theorem writes_endReading {log : List WireEvent} (disturbed : Prop)
    (orderly : Orderly s.client.connection.transport s.writers log)
    (idle : s.client.connection.replying? = none) :
    Writes disturbed s.client.connection.transport s.writers []
      s.endReading.client.connection.transport s.endReading.writers := by
  have hwriters : s.endReading.writers = s.writers := by
    funext a
    cases a with
    | reading => exact idle.symm
    | operation => rfl
  have line : s.endReading.client.connection.transport.writers =
      s.client.connection.transport.writers :=
    Lock.leave_of_notMem fun h ↦ (orderly.inLine .reading).mp h idle
  rw [hwriters]
  exact .quiet line rfl id rfl rfl

/-- What the other side, the clock, the process and the owner do, told as steps of writers. -/
theorem writes_event (disturbed : Prop) (s : ClientSession) (e : Event) :
    Writes disturbed s.client.connection.transport s.writers []
      (s.happen e).client.connection.transport (s.happen e).writers := by
  have hwriters : (s.happen e).writers = s.writers := by cases e <;> rfl
  rw [hwriters]
  cases e with
  | deliver count => exact .quiet rfl (Outflow.written_deliver _ _) id rfl rfl
  | breakSink reason =>
    refine .quiet rfl rfl (fun _ ↦ .inl ?_) rfl rfl
    simp [happen, Client.mapConnection, Connection.breakSink, Connection.mapTransport]
  | arrive | endInflow | tick | childExits | setCallback => exact .quiet rfl rfl id rfl rfl

/-! ### Runs -/

variable {language : String} {limit : Option Duration} {capacity : Nat} {installed : Bool}
  {child : Option Child}

/-- On every run the writers are in order. -/
theorem Run.orderly (run : Run (hosted language limit capacity installed child) h accepted s) :
    Orderly s.client.connection.transport s.writers h.events := by
  induction run with
  | refl =>
    have hwriters : (hosted language limit capacity installed child).writers = fun _ ↦ none := by
      funext a
      cases a <;> rfl
    rw [hwriters]
    exact Orderly.start rfl rfl
  | start _ n r fresh _ ih =>
    rw [History.events_append]
    exact ih.writes (writes_start True fresh r)
  | advance _ n step ih =>
    obtain ⟨task, _, going, _⟩ := advance_spec step
    rw [History.events_append]
    exact ih.writes (writes_advance going step)
  | read _ step ih =>
    rw [History.events_append]
    exact ih.writes (writes_read ih step)
  | callbackFails _ step called ih =>
    have reads := ih.writes (writes_read ih step)
    rw [History.events_append, ← List.append_nil (_ ++ _)]
    exact reads.writes (writes_endReading True reads (replying?_of_called step called))
  | event _ e ih =>
    rw [← List.append_nil (History.events _)]
    exact ih.writes (writes_event True _ e)

end ClientSession

end LanguageHub
