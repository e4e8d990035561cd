import LanguageHub.Proofs.Connection.Moves
import LanguageHub.Proofs.Connection.Origins

/-!
# Who lets go of the stream to the server

A closing lets go of the stream to the server if nobody uses it at that moment. Otherwise the
stream is left to the operation whose turn it is, which lets go of it when it ends: nobody else
has a turn before (`Transport.LeftTo`). The task that reads may be the one whose turn it is, but
it does not let go of the stream when it is stopped. A closing waits for its end first, unless
another closing has stopped it and waits still. Where no two closings are going on at once
(`ReachableAlone`) the stream is therefore never forgotten (`Guarded`).
-/

namespace LanguageHub

namespace Transport

/-- What becomes of the stream to the server while nobody closes the transport. -/
inductive Flows : Transport → Transport → Prop where
  | keeps {t u : Transport} (closed : u.closed = t.closed) (held : u.hasSink = t.hasSink)
      (line : u.writers = t.writers) : Flows t u
  | joins {t u : Transport} (a : Agent) (closed : u.closed = t.closed)
      (held : u.hasSink = t.hasSink) (line : u.writers = t.writers.request a) : Flows t u
  | writes {t u : Transport} {a : Agent} {call : WriteCall}
      {p : Progress WriteCall (Except Failure Unit)} (step : call.step? a t = some (p, u)) :
      Flows t u
  /-- The task that reads ends. -/
  | leaves {t u : Transport} (closed : u.closed = t.closed) (held : u.hasSink = t.hasSink)
      (line : u.writers = t.writers.leave .reading) : Flows t u
  | trans {t u v : Transport} (first : Flows t u) (second : Flows u v) : Flows t v

/-- The transport is closed, and the stream to the server is let go or left to the operation with
the given number. -/
structure LeftTo (m : Nat) (t : Transport) : Prop where
  closed : t.closed = true
  holder : t.hasSink = true → t.writers.line.head? = some (.operation m)

variable {t u : Transport} {m : Nat}

/-- Nobody closes the transport. -/
theorem Flows.closed (flows : Flows t u) : u.closed = t.closed := by
  induction flows with
  | keeps closed | joins _ closed | leaves closed => exact closed
  | writes step => exact (WriteCall.lasts_of_step? step).1
  | trans _ _ first second => exact second.trans first

/-- The operation to which the stream is left keeps its turn until it lets go of the stream. -/
theorem LeftTo.flows (left : t.LeftTo m) (flows : Flows t u) : u.LeftTo m := by
  induction flows with
  | keeps closed held line =>
    exact ⟨closed.trans left.closed, fun h ↦ line ▸ left.holder (held.symm.trans h)⟩
  | joins a closed held line =>
    refine ⟨closed.trans left.closed, fun h ↦ ?_⟩
    rw [line, Lock.request, List.head?_append, left.holder (held.symm.trans h)]
    rfl
  | @writes t u a call p step =>
    have ends (answer : Except Failure Unit) : (WriteCall.finish a answer t).2.LeftTo m := by
      simp only [WriteCall.finish, left.closed, if_true]
      exact ⟨rfl, fun held ↦ by cases held⟩
    generalize hn : (p, u) = next at step
    cases WriteCall.takes_of_step? step with
    | opens | sends => cases hn; exact ⟨left.closed, left.holder⟩
    | refuses first gone =>
      cases hn
      exact ⟨left.closed, fun held ↦ absurd held (by simp [gone])⟩
    | @fails _ reason => cases hn; exact ends (.error (.transport reason))
    | completes => cases hn; exact ends (t.sink.flush.mapError .transport)
  | leaves closed held line =>
    refine ⟨closed.trans left.closed, fun h ↦ ?_⟩
    obtain ⟨rest, hrest⟩ := List.head?_eq_some_iff.mp (left.holder (held.symm.trans h))
    simp [line, Lock.leave, hrest]
  | trans _ _ first second => exact second (first left)

/-- A transport that is closed is not closed again. -/
theorem close_of_closed (closed : t.closed = true) : t.close = (.ok (), t) := by
  simp only [close, closed, if_true]

/-- What is left when the stream to the server is not let go by a closing. -/
theorem held_of_close (opened : t.closed = false) (held : t.close.2.hasSink = true) :
    t.writers.line ≠ [] := by
  intro free
  simp only [close, opened, Bool.false_eq_true, if_false, Lock.isFree, free, List.isEmpty_nil,
    Bool.and_true] at held
  split at held
  · cases held
  · next gone => exact gone held

end Transport

namespace ConnectionSession

variable {s t u : ConnectionSession} {n m : Nat} {r : ConnectionRequest} {c : Connection}
  {log : List WireEvent}

/-! ### What a step does to the stream -/

/-- The start of an operation closes no transport. -/
theorem flows_start (s : ConnectionSession) (n : Nat) (r : ConnectionRequest) :
    s.connection.transport.Flows (s.start n r).connection.transport := by
  cases r with
  | call request limit =>
    simp only [start, Call.start]
    cases s.connection.table.register s.connection.nextId with
    | error f => exact .keeps rfl rfl rfl
    | ok u => exact .joins _ rfl rfl rfl
  | notify notice => exact .joins _ rfl rfl rfl
  | close =>
    simp only [start]
    rw [Connection.transport_startClosing]
    exact .keeps rfl rfl rfl

/-- What a step of an operation can be to those who close the connection. -/
inductive Advances (s : ConnectionSession) (n : Nat) (t : ConnectionSession) : Prop where
  /-- It is no closing, and nobody closes the transport. -/
  | other (flows : s.connection.transport.Flows t.connection.transport)
      (same : ∀ m k, t.tasks.state? m = some (.close k) ↔ s.tasks.state? m = some (.close k))
  /-- A closing has waited for the task that reads. -/
  | awaited (going : s.tasks.state? n = some (.close .awaitingReader))
      (ended : s.connection.reading = .ended)
      (result : t = s.record n s.connection (.running (.close .ready)))
  /-- A closing closes the transport, ends every call and returns. -/
  | closes (going : s.tasks.state? n = some (.close .ready))
      (result : t = s.record n
        { s.connection with
          transport := s.connection.transport.close.2
          table := s.connection.table.failAll "connection closed" }
        (.finished (.done s.connection.transport.close.1)))

/-- An operation that is no closing leaves the closings as they are. -/
private theorem same_record {task : ConnectionTask} (going : s.tasks.state? n = some task)
    (notClosing : ∀ k, task ≠ .close k) {p : Progress ConnectionTask ConnectionAnswer}
    (next : ∀ k, p ≠ .running (.close k)) (c : Connection) (m : Nat) (k : Closing) :
    (s.record n c p).tasks.state? m = some (.close k) ↔ s.tasks.state? m = some (.close k) := by
  by_cases hm : m = n
  · subst hm
    have before : s.tasks.state? m ≠ some (.close k) := fun h ↦
      notClosing k (Option.some.inj (going.symm.trans h))
    refine ⟨fun h ↦ absurd h ?_, fun h ↦ absurd h before⟩
    cases p with
    | running task' =>
      simp only [record, Tasks.state?_update, going]
      exact fun h ↦ next k (congrArg Progress.running (Option.some.inj h))
    | finished answer => simp [record, Tasks.state?_finish]
  · cases p <;> simp [record, Tasks.state?_update, Tasks.state?_finish, hm]

/-- A step of an operation is one of these. -/
theorem advances_of_advance? (step : s.advance? n = some t) : s.Advances n t := by
  obtain ⟨task, progress, c, going, hstep, rfl⟩ := advance?_eq_some step
  cases task with
  | call k =>
    simp only [stepTask?, Option.map_eq_some_iff, Prod.exists] at hstep
    obtain ⟨p, d, hk, hp⟩ := hstep
    have flows : s.connection.transport.Flows d.transport := by
      cases Call.takes_of_step? hk with
      | sends _ hcall | sent _ hcall | unsent _ hcall => exact .writes hcall
      | answered | expires | lost => exact .keeps rfl rfl rfl
    cases p <;> cases hp <;>
      exact .other (by rwa [connection_record]) (same_record going (by simp) (by simp) _)
  | notify call =>
    simp only [stepTask?, Connection.stepNotice?, Option.map_map, Option.map_eq_some_iff,
      Prod.exists] at hstep
    obtain ⟨p, u, hcall, hp⟩ := hstep
    cases p <;> cases hp <;>
      exact .other (by rw [connection_record]; exact .writes hcall)
        (same_record going (by simp) (by simp) _)
  | close k =>
    cases k with
    | awaitingReader =>
      simp only [stepTask?, Closing.step?] at hstep
      split at hstep
      · next ended =>
        cases hstep
        exact .awaited going ended rfl
      · cases hstep
    | ready =>
      cases hstep
      exact .closes going rfl

/-- The task that reads closes no transport. -/
theorem flows_read (step : s.advanceReading? = some t) :
    s.connection.transport.Flows t.connection.transport := by
  obtain ⟨notice, c, hcase, rfl⟩ := readingStep_of_advanceReading? step
  have reads {call : FrameCall} {p : Progress FrameCall FrameAnswer} {u : Transport}
      (hcall : call.step? .reading s.connection.transport = some (p, u)) :
      s.connection.transport.Flows u := by
    obtain ⟨line, -⟩ := FrameCall.step?_sink hcall
    obtain ⟨closed, -, held⟩ := FrameCall.held_of_step? hcall
    exact .keeps closed held line
  generalize s.connection.readingShows = shown at hcase
  cases hcase with
  | stops | givesUp => exact .leaves rfl rfl rfl
  | reads _ hcall => exact reads hcall
  | resolves _ _ hcall | passes _ hcall => exact (reads hcall).trans (.keeps rfl rfl rfl)
  | replies _ _ hcall => exact (reads hcall).trans (.joins _ rfl rfl rfl)
  | ends _ hcall => exact (reads hcall).trans (.leaves rfl rfl rfl)
  | writes _ hcall => exact .writes hcall
  | replied _ hcall => exact (Transport.Flows.writes hcall).trans (.keeps rfl rfl rfl)

/-- What the other side does closes no transport. -/
theorem flows_event (s : ConnectionSession) (e : Event) :
    s.connection.transport.Flows (s.happen e).connection.transport := by
  cases e <;> exact .keeps rfl rfl rfl

/-- The operation to which the stream is left keeps its turn. -/
theorem Step.leftTo (next : Step s t) (left : s.connection.transport.LeftTo m) :
    t.connection.transport.LeftTo m := by
  cases next with
  | start n r => exact left.flows (flows_start s n r)
  | advance n step =>
    cases advances_of_advance? step with
    | other flows => exact left.flows flows
    | awaited _ _ result =>
      rw [result, connection_record]
      exact left
    | closes _ result =>
      rw [result, connection_record, Transport.close_of_closed left.closed]
      exact left
  | read step => exact left.flows (flows_read step)
  | event e => exact left.flows (flows_event s e)

/-- The operation to which the stream is left keeps its turn on every run. -/
theorem Reachable.leftTo (reachable : Reachable s t) (left : s.connection.transport.LeftTo m) :
    t.connection.transport.LeftTo m := by
  induction reachable with
  | refl => exact left
  | step _ next ih => exact next.leftTo ih

/-! ### Closings one at a time -/

/-- The numbers of the closings that are going on. -/
def closings (s : ConnectionSession) : List Nat := s.tasks.numbers.filter fun n ↦
  match s.tasks.state? n with
  | some (.close _) => true
  | _ => false

theorem mem_closings : n ∈ s.closings ↔ ∃ k, s.tasks.state? n = some (.close k) := by
  have going : n ∈ s.tasks.numbers ↔ s.tasks.state? n ≠ none := by
    rw [ne_eq, Tasks.state?_eq_none_iff, not_not]
  rw [closings, List.mem_filter, going]
  cases s.tasks.state? n with
  | none => simp
  | some task => cases task <;> simp

/-- At most one closing is going on. -/
def ClosesAlone (s : ConnectionSession) : Prop := ∀ m ∈ s.closings, ∀ n ∈ s.closings, m = n

instance (s : ConnectionSession) : Decidable s.ClosesAlone :=
  inferInstanceAs (Decidable (∀ m ∈ s.closings, ∀ n ∈ s.closings, m = n))

/-- A closing that goes on after a step of an operation went on before. -/
theorem closings_advance (step : s.advance? n = some t) : t.closings ⊆ s.closings := by
  intro m going
  obtain ⟨k, going⟩ := mem_closings.mp going
  refine mem_closings.mpr ?_
  cases advances_of_advance? step with
  | other _ same => exact ⟨k, (same m k).mp going⟩
  | awaited before _ result =>
    by_cases hm : m = n
    · exact ⟨_, hm ▸ before⟩
    · simp only [result, record, Tasks.state?_update, hm, if_false] at going
      exact ⟨k, going⟩
  | closes _ result =>
    by_cases hm : m = n
    · simp [result, record, Tasks.state?_finish, hm] at going
    · simp only [result, record, Tasks.state?_finish, hm, if_false] at going
      exact ⟨k, going⟩

/-- What can come of a session while no two closings are going on at once. -/
inductive ReachableAlone (s : ConnectionSession) : ConnectionSession → Prop where
  | refl : ReachableAlone s s
  | step {t u : ConnectionSession} (h : ReachableAlone s t) (next : Step t u)
      (alone : u.ClosesAlone) : ReachableAlone s u

/-- What can come of a session without overlapping closings can come of it. -/
theorem ReachableAlone.reachable (reachable : ReachableAlone s t) : Reachable s t := by
  induction reachable with
  | refl => exact .refl
  | step _ next _ ih => exact ih.step next

theorem ReachableAlone.trans (first : ReachableAlone s t) (second : ReachableAlone t u) :
    ReachableAlone s u := by
  induction second with
  | refl => exact first
  | step _ next alone ih => exact ih.step next alone

/-- Where at most one closing is going on, everything goes on until nothing can. -/
theorem ReachableAlone.settle (reachable : ReachableAlone s t) (alone : t.ClosesAlone)
    (fuel : Nat) : ReachableAlone s (LanguageHub.settle advanceAny? fuel t) ∧
      (LanguageHub.settle advanceAny? fuel t).ClosesAlone := by
  induction fuel generalizing t with
  | zero => exact ⟨reachable, alone⟩
  | succ fuel ih =>
    simp only [LanguageHub.settle]
    cases hstep : t.advanceAny? with
    | none => exact ⟨reachable, alone⟩
    | some u =>
      simp only [advanceAny?] at hstep
      split at hstep
      · next read =>
        cases hstep
        have same : u.ClosesAlone := by
          obtain ⟨_, _, _, rfl⟩ := readingStep_of_advanceReading? read
          exact alone
        exact ih (reachable.step (.read read) same) same
      · obtain ⟨n, _, step⟩ := List.exists_of_findSome?_eq_some hstep
        have same : u.ClosesAlone := fun i hi j hj ↦
          alone i (closings_advance step hi) j (closings_advance step hj)
        exact ih (reachable.step (.advance n step) same) same

/-- What holds of a connection whose closings come one after the other: nobody closes it before
the task that reads has ended. -/
structure Guarded (s : ConnectionSession) : Prop where
  stopped : s.connection.stopping = true →
    s.connection.reading = .ended ∨ ∃ n, s.tasks.state? n = some (.close .awaitingReader)
  ready : ∀ n, s.tasks.state? n = some (.close .ready) → s.connection.reading = .ended
  closed : s.connection.transport.closed = true →
    s.connection.reading = .ended ∧ ∃ m ∈ s.numbers, s.connection.transport.LeftTo m

/-- What a start makes of the closings. -/
theorem closing_start (fresh : n ∉ s.numbers) (r : ConnectionRequest) {k : Closing} :
    (s.start n r).tasks.state? m = some (.close k) ↔
      s.tasks.state? m = some (.close k) ∨
        m = n ∧ r = .close ∧ k = (Closing.start s.connection).1 := by
  have hnumber : n ∉ s.tasks.numbers := Tasks.state?_eq_none_iff.mp (state?_of_fresh fresh)
  have hnone := state?_of_fresh fresh
  by_cases hm : m = n
  · subst hm
    cases r with
    | call request limit =>
      simp only [start, Call.start]
      cases s.connection.table.register s.connection.nextId <;>
        simp [Tasks.state?_finish, Tasks.state?_start hnumber, hnone]
    | notify => simp [start, Tasks.state?_start hnumber, hnone]
    | close => simp [start, Tasks.state?_start hnumber, hnone, eq_comm]
  · cases r with
    | call request limit =>
      simp only [start, Call.start]
      cases s.connection.table.register s.connection.nextId <;>
        simp [Tasks.state?_finish, Tasks.state?_start hnumber, hm]
    | notify => simp [start, Tasks.state?_start hnumber, hm]
    | close => simp [start, Tasks.state?_start hnumber, hm]

/-- A start that stops the task that reads is the start of a closing that waits for its end. -/
theorem stopping_start (told : (s.start n r).connection.stopping = true) :
    s.connection.stopping = true ∨
      r = .close ∧ (Closing.start s.connection).1 = .awaitingReader := by
  cases hstopping : s.connection.stopping with
  | true => exact .inl rfl
  | false =>
    cases r with
    | call request limit =>
      simp only [start, Call.start] at told
      cases hr : s.connection.table.register s.connection.nextId <;>
        simp [hr, hstopping] at told
    | notify => simp [start, Connection.startNotice, hstopping] at told
    | close => exact .inr ⟨rfl, by simp [Closing.start, hstopping]⟩

/-- A closing that has nothing in its way when it begins was preceded by another one. -/
theorem stopping_of_ready (ready : (Closing.start c).1 = .ready) : c.stopping = true := by
  by_contra going
  simp [Closing.start, going] at ready

namespace Guarded

/-- The beginning of an operation. -/
theorem start (guarded : s.Guarded) (fresh : n ∉ s.numbers)
    (alone : (s.start n r).ClosesAlone) : (s.start n r).Guarded := by
  have reading := (start_reading s n r).1
  refine ⟨fun told ↦ ?_, fun m going ↦ ?_, fun closed ↦ ?_⟩
  · rw [reading]
    obtain told | ⟨rfl, waits⟩ := stopping_start told
    · refine (guarded.stopped told).imp_right fun ⟨m, hm⟩ ↦ ⟨m, ?_⟩
      exact (closing_start fresh r).mpr (.inl hm)
    · exact .inr ⟨n, (closing_start fresh .close).mpr (.inr ⟨rfl, rfl, waits.symm⟩)⟩
  · rw [reading]
    obtain before | ⟨rfl, rfl, ready⟩ := (closing_start fresh r).mp going
    · exact guarded.ready m before
    · refine (guarded.stopped (stopping_of_ready ready.symm)).elim id fun ⟨j, hj⟩ ↦ ?_
      -- Another closing that waits would still be going on.
      have waits := (closing_start fresh .close).mpr (.inl hj)
      have same := alone j (mem_closings.mpr ⟨_, waits⟩) m (mem_closings.mpr ⟨_, going⟩)
      rw [same, state?_of_fresh fresh] at hj
      cases hj
  · have flows := flows_start s n r
    obtain ⟨ended, m, used, left⟩ := guarded.closed (flows.closed.symm.trans closed)
    exact ⟨reading.trans ended, m, (mem_numbers_start fresh r).mpr (.inr used), left.flows flows⟩

/-- A closing lets go of the stream, or leaves it to an operation. -/
theorem exists_leftTo (orderly : Orderly s.connection.transport s.writers log)
    (ended : s.connection.reading = .ended) (opened : s.connection.transport.closed = false)
    (used : n ∈ s.numbers) : ∃ m ∈ s.numbers, s.connection.transport.close.2.LeftTo m := by
  have closed := (Connection.lasts_close s.connection.transport).1
  cases held : s.connection.transport.close.2.hasSink with
  | false => exact ⟨n, used, closed, fun h ↦ absurd (held.symm.trans h) Bool.false_ne_true⟩
  | true =>
    have line := (Connection.close_spec s.connection.transport).1
    obtain ⟨a, rest, hline⟩ :=
      List.exists_cons_of_ne_nil (Transport.held_of_close opened held)
    have writing : s.writers a ≠ none := (orderly.inLine a).mp (by simp [hline])
    cases a with
    | reading =>
      -- The task that reads has left its locks.
      simp [writers, Connection.replying?, ended] at writing
    | operation m =>
      refine ⟨m, mem_numbers_iff.mpr (.inl fun hnone ↦ writing ?_), closed, fun _ ↦ ?_⟩
      · simp [writers, hnone]
      · rw [line, hline]
        rfl

/-- A step of an operation. -/
theorem advance (guarded : s.Guarded) (orderly : Orderly s.connection.transport s.writers log)
    (step : s.advance? n = some t) : t.Guarded := by
  obtain ⟨reading, stopping⟩ := advance_reading step
  have numbers {m : Nat} := mem_numbers_advance (m := m) step
  cases advances_of_advance? step with
  | other flows same =>
    refine ⟨fun told ↦ ?_, fun m going ↦ ?_, fun closed ↦ ?_⟩
    · rw [reading]
      exact (guarded.stopped (stopping ▸ told)).imp_right fun ⟨m, hm⟩ ↦ ⟨m, (same m _).mpr hm⟩
    · exact reading.trans (guarded.ready m ((same m _).mp going))
    · obtain ⟨ended, m, used, left⟩ := guarded.closed (flows.closed.symm.trans closed)
      exact ⟨reading.trans ended, m, numbers used, left.flows flows⟩
  | awaited going ended result =>
    have ended := reading.trans ended
    refine ⟨fun _ ↦ .inl ended, fun _ _ ↦ ended, fun closed ↦ ?_⟩
    rw [result, connection_record] at closed ⊢
    obtain ⟨ended, m, used, left⟩ := guarded.closed closed
    exact ⟨ended, m, result ▸ numbers used, left⟩
  | closes going result =>
    have ended := guarded.ready n going
    have used : n ∈ s.numbers := mem_numbers_iff.mpr (.inl (by simp [going]))
    refine ⟨fun _ ↦ .inl (reading.trans ended), fun _ _ ↦ reading.trans ended,
      fun _ ↦ ⟨reading.trans ended, ?_⟩⟩
    have left : ∃ m ∈ s.numbers, s.connection.transport.close.2.LeftTo m := by
      cases closed : s.connection.transport.closed with
      | false => exact exists_leftTo orderly ended closed used
      | true =>
        rw [Transport.close_of_closed closed]
        exact (guarded.closed closed).2
    obtain ⟨m, used, left⟩ := left
    refine ⟨m, numbers used, ?_⟩
    rwa [result, connection_record]

/-- A step of the task that reads: it has not ended, so nobody has closed the connection. -/
theorem read (guarded : s.Guarded) (step : s.advanceReading? = some t) : t.Guarded := by
  have closed := (flows_read step).closed
  obtain ⟨notice, c, hcase, rfl⟩ := readingStep_of_advanceReading? step
  have goesOn := hcase.ne_ended
  refine ⟨fun told ↦ ?_, fun m going ↦ absurd (guarded.ready m going) goesOn,
    fun h ↦ absurd (guarded.closed (closed.symm.trans h)).1 goesOn⟩
  have told : s.connection.stopping = true := by
    generalize s.connection.readingShows = shown at hcase
    cases hcase <;> exact told
  exact .inr ((guarded.stopped told).resolve_left goesOn)

/-- What the other side, the clock and the handler do. -/
theorem event (guarded : s.Guarded) (e : Event) : (s.happen e).Guarded := by
  obtain ⟨reading, stopping⟩ := happen_reading s e
  have flows := flows_event s e
  have tasks : (s.happen e).tasks = s.tasks := by cases e <;> rfl
  refine ⟨fun told ↦ ?_, fun m going ↦ ?_, fun closed ↦ ?_⟩
  · rw [reading, tasks]
    exact guarded.stopped (stopping ▸ told)
  · exact reading.trans (guarded.ready m (tasks ▸ going))
  · obtain ⟨ended, m, used, left⟩ := guarded.closed (flows.closed.symm.trans closed)
    refine ⟨reading.trans ended, m, ?_, left.flows flows⟩
    rwa [numbers, tasks]

end Guarded

end ConnectionSession

end LanguageHub
