import LanguageHub.Proofs.Connection.Writers
import LanguageHub.Proofs.Tasks

/-!
# What goes out on a connection

Calls, notifications and the task that reads share the stream to the server in good order, on
every run of a connection.
-/

namespace LanguageHub.ConnectionSession

variable {s₀ s t : ConnectionSession} {h : History} {log : List WireEvent} {n : Nat}

/-- A fresh number has no task. -/
theorem state?_of_fresh (fresh : n ∉ s.numbers) : s.tasks.state? n = none :=
  Tasks.state?_eq_none_iff.mpr fun hn ↦ fresh (List.mem_append_left _ hn)

/-- A fresh number has no answer. -/
theorem answer?_of_fresh (fresh : n ∉ s.numbers) : s.tasks.answer? n = none :=
  Tasks.answer?_eq_none_iff.mpr fun hn ↦ fresh (List.mem_append_right _ hn)

/-- The writers of a session of which one operation has gone on. -/
theorem writers_eq_update {c : Option WriteCall}
    (reading : t.connection.replying? = s.connection.replying?)
    (tasks : ∀ m, (t.tasks.state? m).bind ConnectionTask.writing? =
      if m = n then c else (s.tasks.state? m).bind ConnectionTask.writing?) :
    t.writers = Function.update s.writers (.operation n) c := by
  funext a
  cases a with
  | reading => exact reading
  | operation m =>
    by_cases hm : m = n
    · subst hm
      rw [Function.update_self]
      exact (tasks m).trans (if_pos rfl)
    · rw [Function.update_of_ne (fun h ↦ hm (Agent.operation.inj h))]
      exact (tasks m).trans (if_neg hm)

/-- The writers of a session of which only the task that reads has gone on. -/
theorem writers_reading (s : ConnectionSession) (c : Connection) (handled : List ServerNotice) :
    { s with connection := c, handled }.writers =
      Function.update s.writers .reading c.replying? := by
  funext a
  cases a with
  | reading =>
    rw [Function.update_self]
    rfl
  | operation m =>
    rw [Function.update_of_ne (fun h ↦ Agent.noConfusion h)]
    rfl

/-- An operation that begins joins the line of writers, or leaves the stream alone. -/
theorem orderly_start (orderly : Orderly s.connection.transport s.writers log)
    (fresh : n ∉ s.numbers) (r : ConnectionRequest) :
    Orderly (s.start n r).connection.transport (s.start n r).writers
      (log ++ History.events (s.startShows n r)) := by
  have hnone : s.tasks.state? n = none := state?_of_fresh fresh
  have hidle : s.writers (.operation n) = none := by simp [writers, hnone]
  have hnumber : n ∉ s.tasks.numbers := Tasks.state?_eq_none_iff.mp hnone
  cases r with
  | call request limit =>
    cases hc : s.connection.table.closed with
    | true =>
      have hwriters : (s.start n (.call request limit)).writers = s.writers := by
        rw [← Function.update_eq_self (.operation n) s.writers, hidle]
        refine writers_eq_update ?_ fun m ↦ ?_
        · simp only [start, Call.start, CallTable.register_of_closed hc]
          rfl
        · simp only [start, Call.start, CallTable.register_of_closed hc, Tasks.state?_finish]
          split <;> rfl
      rw [hwriters]
      simp only [start, startShows, Call.start, CallTable.register_of_closed hc, hc, if_true]
      rwa [show History.events [.called n s.connection.nextId request] = [] from rfl,
        List.append_nil]
    | false =>
      obtain ⟨table, ticket, hregister⟩ :=
        CallTable.register_of_open hc s.connection.nextId
      have hwriters : (s.start n (.call request limit)).writers =
          Function.update s.writers (.operation n)
            (some (.queued (Frame.encode (request.encode s.connection.nextId)))) := by
        refine writers_eq_update ?_ fun m ↦ ?_
        · simp only [start, Call.start, hregister]
          rfl
        · simp only [start, Call.start, hregister, Tasks.state?_start hnumber]
          split <;> rfl
      rw [hwriters]
      simp only [start, startShows, Call.start, hregister, hc]
      exact orderly.step (.ask _ _ hidle)
  | notify notice =>
    have hwriters : (s.start n (.notify notice)).writers =
        Function.update s.writers (.operation n) (some (.queued (Frame.encode notice.encode))) := by
      refine writers_eq_update rfl fun m ↦ ?_
      simp only [start, Connection.startNotice, Tasks.state?_start hnumber]
      split <;> rfl
    rw [hwriters]
    exact orderly.step (.ask _ _ hidle)
  | close =>
    have htransport : (s.start n .close).connection.transport = s.connection.transport := by
      simp only [start, Closing.start]
      split <;> rfl
    have hwriters : (s.start n .close).writers = s.writers := by
      rw [← Function.update_eq_self (.operation n) s.writers, hidle]
      refine writers_eq_update ?_ fun m ↦ ?_
      · simp only [start, Closing.start]
        split <;> rfl
      · simp only [start, Tasks.state?_start hnumber]
        split <;> rfl
    rw [htransport, hwriters]
    simpa [startShows, History.events] using orderly

/-- The write that a task is at which has come to this. -/
def writingOf : Progress ConnectionTask ConnectionAnswer → Option WriteCall
  | .running task => task.writing?
  | .finished _ => none

/-- The writers after a step of an operation. -/
theorem writers_record {task : ConnectionTask} {c : Connection}
    (going : s.tasks.state? n = some task)
    (reading : c.replying? = s.connection.replying?)
    (p : Progress ConnectionTask ConnectionAnswer) :
    (s.record n c p).writers = Function.update s.writers (.operation n) (writingOf p) := by
  cases p with
  | running next =>
    refine writers_eq_update reading fun m ↦ ?_
    simp only [record, Tasks.state?_update, going]
    split <;> rfl
  | finished answer =>
    refine writers_eq_update reading fun m ↦ ?_
    simp only [record, Tasks.state?_finish]
    split <;> rfl

/-- An operation that is no write changes nothing about who writes. -/
theorem orderly_quiet {c : Connection} {p : Progress ConnectionTask ConnectionAnswer}
    {task : ConnectionTask} (orderly : Orderly s.connection.transport s.writers log)
    (going : s.tasks.state? n = some task) (silent : task.writing? = none)
    (next : writingOf p = none) (reading : c.replying? = s.connection.replying?)
    (line : c.transport.writers = s.connection.transport.writers)
    (written : c.transport.sink.written = s.connection.transport.sink.written)
    (dead : s.connection.transport.sink.Dead → c.transport.sink.Dead) :
    Orderly (s.record n c p).connection.transport (s.record n c p).writers
      (log ++ History.events (s.advanceShows n)) := by
  have hnone : s.writers (.operation n) = none := by simp [writers, going, silent]
  have hwriters : (s.record n c p).writers = s.writers := by
    rw [writers_record going reading, next, ← hnone, Function.update_eq_self]
  have hshows : s.advanceShows n = [] := by simp only [advanceShows, hnone]
  rw [hwriters, connection_record, hshows]
  exact (orderly.quiet line written dead).step (.quiet rfl rfl id)

/-- The write that an operation is at is one of those that are going on. -/
theorem writers_operation {task : ConnectionTask} {call : WriteCall}
    (going : s.tasks.state? n = some task) (writing : task.writing? = some call) :
    s.writers (.operation n) = some call := by
  simp only [writers, going, Option.bind_some, writing]

/-- A step of an operation that writes is a step of its write. -/
theorem orderly_write {c : Connection} {p : Progress ConnectionTask ConnectionAnswer}
    {task : ConnectionTask} {call : WriteCall}
    (orderly : Orderly s.connection.transport s.writers log)
    (going : s.tasks.state? n = some task) (writing : task.writing? = some call)
    (reading : c.replying? = s.connection.replying?)
    (step : WriteStep s.connection.transport s.writers
      (call.shows (.operation n) s.connection.transport) c.transport
      (Function.update s.writers (.operation n) (writingOf p))) :
    Orderly (s.record n c p).connection.transport (s.record n c p).writers
      (log ++ History.events (s.advanceShows n)) := by
  have hshows : History.events (s.advanceShows n) =
      call.shows (.operation n) s.connection.transport := by
    simp only [advanceShows, writers_operation going writing, History.events_map_wire]
  rw [hshows, writers_record going reading, connection_record]
  exact orderly.step step

private theorem writing?_sending {k : Call} {call : WriteCall} (h : k.phase = .sending call) :
    (ConnectionTask.call k).writing? = some call := by
  obtain ⟨_, _, _, phase⟩ := k
  cases h
  rfl

private theorem writing?_waiting {k : Call} {due : Option Nat} (h : k.phase = .waiting due) :
    (ConnectionTask.call k).writing? = none := by
  obtain ⟨_, _, _, phase⟩ := k
  cases h
  rfl

/-- A step of an operation keeps the writers in order. -/
theorem orderly_advance (orderly : Orderly s.connection.transport s.writers log)
    (step : s.advance? n = some t) :
    Orderly t.connection.transport t.writers (log ++ History.events (s.advanceShows n)) := by
  obtain ⟨task, progress, c, going, hstep, rfl⟩ := advance?_eq_some step
  cases task with
  | call k =>
    simp only [stepTask?, Option.map_eq_some_iff, Prod.exists] at hstep
    obtain ⟨p, d, hk, hp⟩ := hstep
    cases Call.takes_of_step? hk with
    | sends sending hcall =>
      cases hp
      have hw := writing?_sending sending
      exact orderly_write orderly going hw rfl (.go (writers_operation going hw) hcall)
    | sent sending hcall | unsent sending hcall =>
      cases hp
      have hw := writing?_sending sending
      refine orderly_write orderly going hw rfl ?_
      rw [WriteCall.shows_of_finished hcall]
      exact .finish (writers_operation going hw) hcall
    | answered waiting | expires waiting | lost waiting =>
      cases hp
      exact orderly_quiet orderly going (writing?_waiting waiting) rfl rfl rfl rfl id
  | notify call =>
    simp only [stepTask?, Connection.stepNotice?, Option.map_map, Option.map_eq_some_iff,
      Prod.exists] at hstep
    obtain ⟨p, u, hcall, hp⟩ := hstep
    cases p with
    | running call' =>
      cases hp
      exact orderly_write orderly going rfl rfl (.go (writers_operation going rfl) hcall)
    | finished answer =>
      cases hp
      refine orderly_write orderly going rfl rfl ?_
      rw [WriteCall.shows_of_finished hcall]
      exact .finish (writers_operation going rfl) hcall
  | close k =>
    cases k with
    | awaitingReader =>
      simp only [stepTask?, Closing.step?] at hstep
      split at hstep
      · cases hstep
        exact orderly_quiet orderly going rfl rfl rfl rfl rfl id
      · cases hstep
    | ready =>
      cases hstep
      obtain ⟨line, written, dead⟩ := Connection.close_spec s.connection.transport
      exact orderly_quiet orderly going rfl rfl rfl line written dead

/-- A step of the task that reads keeps the writers in order. -/
theorem orderly_read (orderly : Orderly s.connection.transport s.writers log)
    (step : s.advanceReading? = some t) :
    Orderly t.connection.transport t.writers
      (log ++ History.events s.connection.readingShows) := by
  obtain ⟨notice, c, hstep, rfl⟩ := readingStep_of_advanceReading? step
  rw [writers_reading]
  exact orderly.writes (hstep.toWrites rfl (orderly.inLine .reading))

/-- What the other side, the clock and the handler do keeps the writers in order. -/
theorem orderly_event (orderly : Orderly s.connection.transport s.writers log) (e : Event) :
    Orderly (s.happen e).connection.transport (s.happen e).writers log := by
  have hwriters : (s.happen e).writers = s.writers := by cases e <;> rfl
  rw [hwriters]
  cases e with
  | deliver count => exact orderly.quiet rfl (Outflow.written_deliver _ _) id
  | breakSink reason => exact orderly.quiet rfl rfl fun _ ↦ .inl (by
      simp [happen, Connection.breakSink, Connection.mapTransport])
  | arrive | endInflow | tick | setHandler => exact orderly.quiet rfl rfl id

/-- Writers that are in order at the beginning of a run stay so. -/
theorem Run.keepsOrder (run : Run s₀ h s)
    (start : Orderly s₀.connection.transport s₀.writers []) :
    Orderly s.connection.transport s.writers h.events := by
  induction run with
  | refl => exact start
  | start _ n r fresh ih =>
    rw [History.events_append]
    exact orderly_start ih fresh r
  | advance _ n step ih =>
    rw [History.events_append]
    exact orderly_advance ih step
  | read _ step ih =>
    rw [History.events_append]
    exact orderly_read ih step
  | event _ e ih => exact orderly_event ih e

/-- The writers of a connection are in order when it begins. -/
theorem orderly_ofTransport {transport : Transport} (free : transport.writers.line = [])
    (empty : transport.sink.written = []) (handlerFails : Bool) :
    let s : ConnectionSession := { connection := .ofTransport transport handlerFails }
    Orderly s.connection.transport s.writers [] := by
  intro s
  have hwriters : s.writers = fun _ ↦ none := by
    funext a
    cases a <;> rfl
  rw [hwriters]
  exact Orderly.start free empty

/-- On every run the writers are in order. -/
theorem Run.orderly {capacity : Nat} {handlerFails : Bool}
    (run : Run (overPipes capacity handlerFails) h s) :
    Orderly s.connection.transport s.writers h.events :=
  run.keepsOrder (orderly_ofTransport rfl rfl handlerFails)

end LanguageHub.ConnectionSession
