import LanguageHub.Proofs.Connection.Steps
import LanguageHub.Proofs.Connection.Writers

/-!
# What operations make of a connection

An operation changes a connection in a few ways only: it takes an id, registers a call or takes it
out, joins the line of writers, writes or gives up, stops the task that reads, closes, and lets go
of the streams. What none of these does to a connection, no operation does.

No operation undoes what holds of a connection for good (`Moves.onward`): what is closed stays
closed, who was told to stop is not told to go on, and the task that reads does not begin again.
The task that reads undoes none of it either (`ReadingStep.onward`).
-/

namespace LanguageHub

namespace Connection

variable {a : Agent} {now : Nat} {c d e : Connection}

/-- What one who operates on a connection makes of it, step by step. -/
inductive Moves (a : Agent) (c : Connection) : Connection → Prop where
  | refl : Moves a c c
  | takesId {d : Connection} (before : Moves a c d) : Moves a c { d with nextId := d.nextId + 1 }
  | registers {d : Connection} {id : Int} {table : CallTable} {ticket : Nat}
      (before : Moves a c d) (registered : d.table.register id = .ok (table, ticket)) :
      Moves a c { d with table }
  | forgets {d : Connection} (before : Moves a c d) (id : Int) :
      Moves a c { d with table := (d.table.remove id).1 }
  | asks {d : Connection} (before : Moves a c d) (data : Bytes) :
      Moves a c { d with transport := (WriteCall.start a data d.transport).2 }
  | writes {d : Connection} {call : WriteCall} {p : Progress WriteCall (Except Failure Unit)}
      {t : Transport} (before : Moves a c d) (step : call.step? a d.transport = some (p, t)) :
      Moves a c { d with transport := t }
  | givesUp {d : Connection} (before : Moves a c d) :
      Moves a c (d.mapTransport (WriteCall.abandon a))
  | stops {d : Connection} (before : Moves a c d) : Moves a c { d with stopping := true }
  | closes {d : Connection} (before : Moves a c d) :
      Moves a c { d with
        transport := d.transport.close.2
        table := d.table.failAll "connection closed" }
  | drops {d : Connection} (before : Moves a c d) : Moves a c (d.mapTransport Transport.drop)

theorem Moves.trans (first : Moves a c d) (second : Moves a d e) : Moves a c e := by
  induction second with
  | refl => exact first
  | takesId _ ih => exact ih.takesId
  | registers _ registered ih => exact ih.registers registered
  | forgets _ id ih => exact ih.forgets id
  | asks _ data ih => exact ih.asks data
  | writes _ step ih => exact ih.writes step
  | givesUp _ ih => exact ih.givesUp
  | stops _ ih => exact ih.stops
  | closes _ ih => exact ih.closes
  | drops _ ih => exact ih.drops

/-! ### Calls, notifications and closings -/

/-- The start of a call. -/
theorem moves_startCall (a : Agent) (request : Request) (limit : Option Duration)
    (c : Connection) : Moves a c (Call.start a request limit c).2 := by
  have taken : Moves a c { c with nextId := c.nextId + 1 } := .takesId .refl
  simp only [Call.start]
  split
  · exact taken
  · next registered => exact (taken.registers registered).asks _

/-- A step of a call. -/
theorem moves_stepCall? {k : Call} {p : Progress Call Outcome}
    (step : k.step? a now c = some (p, d)) : Moves a c d := by
  cases Call.takes_of_step? step with
  | sends _ hcall | sent _ hcall => exact .writes .refl hcall
  | unsent _ hcall => exact .forgets (.writes .refl hcall) k.id
  | answered | lost => exact .refl
  | expires => exact .forgets .refl k.id

/-- The start of a notification. -/
theorem moves_startNotice (a : Agent) (notice : Notice) (c : Connection) :
    Moves a c (c.startNotice a notice).2 := .asks .refl (Frame.encode notice.encode)

/-- A step of a notification. -/
theorem moves_stepNotice? {call : WriteCall} {p : Progress WriteCall (Except Failure Unit)}
    (step : c.stepNotice? a call = some (p, d)) : Moves a c d := by
  simp only [stepNotice?, Option.map_eq_some_iff, Prod.exists] at step
  obtain ⟨q, t, hcall, he⟩ := step
  cases he
  exact .writes .refl hcall

/-- The start of a closing. -/
theorem moves_startClosing (a : Agent) (c : Connection) : Moves a c (Closing.start c).2 := by
  unfold Closing.start
  split
  · exact .refl
  · exact .stops .refl

/-- A step of a closing. -/
theorem moves_stepClosing? {k : Closing} {p : Progress Closing (Except Failure Unit)}
    (step : k.step? c = some (p, d)) : Moves a c d := by
  cases k with
  | awaitingReader =>
    simp only [Closing.step?] at step
    split at step
    · cases step
      exact .refl
    · cases step
  | ready =>
    cases step
    exact .closes .refl

end Connection

namespace ConnectionSession

variable {n now : Nat}

/-- A step of an operation. -/
theorem moves_stepTask? {task : ConnectionTask} {c d : Connection}
    {p : Progress ConnectionTask ConnectionAnswer} (step : stepTask? n now task c = some (p, d)) :
    Connection.Moves (.operation n) c d := by
  cases task with
  | call k =>
    simp only [stepTask?, Option.map_eq_some_iff, Prod.exists] at step
    obtain ⟨q, e, hk, hp⟩ := step
    have moves := Connection.moves_stepCall? hk
    cases q <;> cases hp <;> exact moves
  | notify call =>
    simp only [stepTask?, Option.map_eq_some_iff, Prod.exists] at step
    obtain ⟨q, e, hk, hp⟩ := step
    have moves := Connection.moves_stepNotice? hk
    cases q <;> cases hp <;> exact moves
  | close k =>
    simp only [stepTask?, Option.map_eq_some_iff, Prod.exists] at step
    obtain ⟨q, e, hk, hp⟩ := step
    have moves := Connection.moves_stepClosing? (a := .operation n) hk
    cases q <;> cases hp <;> exact moves

/-- The start of an operation. -/
theorem moves_start (s : ConnectionSession) (n : Nat) (r : ConnectionRequest) :
    Connection.Moves (.operation n) s.connection (s.start n r).connection := by
  cases r with
  | call request limit =>
    have moves := Connection.moves_startCall (.operation n) request limit s.connection
    simp only [start]
    split <;> next hstart => rwa [hstart] at moves
  | notify notice => exact Connection.moves_startNotice (.operation n) notice s.connection
  | close => exact Connection.moves_startClosing (.operation n) s.connection

end ConnectionSession

/-! ### What is never undone -/

namespace Connection

variable {a : Agent} {c d e : Connection}

/-- What holds for good of the first connection holds of the second. -/
structure Onward (c d : Connection) : Prop where
  table : c.table.Goes d.table
  closed : c.transport.closed = true → d.transport.closed = true
  stopping : c.stopping = true → d.stopping = true
  ended : c.reading = .ended → d.reading = .ended
  faults : d.transport.sink.faultyAt = c.transport.sink.faultyAt

theorem Onward.refl (c : Connection) : Onward c c := ⟨.refl, id, id, id, rfl⟩

theorem Onward.trans (first : Onward c d) (second : Onward d e) : Onward c e where
  table := first.table.trans second.table
  closed := second.closed ∘ first.closed
  stopping := second.stopping ∘ first.stopping
  ended := second.ended ∘ first.ended
  faults := second.faults.trans first.faults

/-- Only the transport changes, and it is not opened. -/
theorem Onward.of_transport {t : Transport} (closed : c.transport.closed = true → t.closed = true)
    (faults : t.sink.faultyAt = c.transport.sink.faultyAt) :
    Onward c { c with transport := t } := ⟨.refl, closed, id, id, faults⟩

/-- A connection that is closed stays closed. -/
theorem Onward.isClosed (onward : Onward c d) (closed : c.isClosed = true) :
    d.isClosed = true := by
  simp only [Connection.isClosed, Bool.or_eq_true] at closed ⊢
  exact closed.imp onward.closed onward.table.closed

/-- Closing a transport mends nothing, and it leaves the transport closed. -/
theorem lasts_close (t : Transport) :
    t.close.2.closed = true ∧ t.close.2.sink.faultyAt = t.sink.faultyAt := by
  unfold Transport.close
  split
  · next closed => exact ⟨closed, rfl⟩
  · simp only
    split <;> exact ⟨rfl, rfl⟩

/-- No operation undoes what holds for good. -/
theorem Moves.onward (moves : Moves a c d) : Onward c d := by
  induction moves with
  | refl => exact .refl c
  | takesId _ ih => exact ih.trans ⟨.refl, id, id, id, rfl⟩
  | registers _ registered ih => exact ih.trans ⟨.registers .refl registered, id, id, id, rfl⟩
  | forgets _ id' ih =>
    exact ih.trans ⟨.takes .refl id' Ticket.noConfusion, id, id, id, rfl⟩
  | asks _ _ ih => exact ih.trans (.of_transport id rfl)
  | writes _ step ih =>
    obtain ⟨closed, faults⟩ := WriteCall.lasts_of_step? step
    exact ih.trans (.of_transport closed.trans faults)
  | givesUp _ ih => exact ih.trans (.of_transport id rfl)
  | stops _ ih => exact ih.trans ⟨.refl, id, fun _ ↦ rfl, id, rfl⟩
  | @closes d _ ih =>
    obtain ⟨closed, faults⟩ := lasts_close d.transport
    exact ih.trans ⟨.fails .refl _, fun _ ↦ closed, id, id, faults⟩
  | drops _ ih => exact ih.trans (.of_transport id rfl)

/-- The end of the task that reads. -/
theorem onward_endReading (c : Connection) : Onward c c.endReading :=
  ⟨.fails .refl _, id, id, fun _ ↦ rfl, rfl⟩

/-- The task that reads undoes nothing that holds for good. -/
theorem ReadingStep.onward {shown : History} {notice : Option ServerNotice}
    (step : c.ReadingStep shown d notice) : Onward c d := by
  have goesOn := step.ne_ended
  have reads {call : FrameCall} {p : Progress FrameCall FrameAnswer} {t : Transport}
      (hcall : call.step? .reading c.transport = some (p, t)) :
      t.closed = c.transport.closed ∧ t.sink.faultyAt = c.transport.sink.faultyAt := by
    obtain ⟨-, sink⟩ := FrameCall.step?_sink hcall
    obtain ⟨closed, -, -⟩ := FrameCall.held_of_step? hcall
    exact ⟨closed, congrArg _ sink⟩
  cases step with
  | stops | givesUp => exact onward_endReading c
  | reads _ hcall | passes _ hcall | replies _ _ hcall =>
    obtain ⟨closed, faults⟩ := reads hcall
    exact ⟨.refl, closed.trans, id, fun h ↦ absurd h goesOn, faults⟩
  | resolves _ _ hcall =>
    obtain ⟨closed, faults⟩ := reads hcall
    exact ⟨.takes .refl _ Ticket.noConfusion, closed.trans, id, fun h ↦ absurd h goesOn, faults⟩
  | ends _ hcall =>
    obtain ⟨closed, faults⟩ := reads hcall
    exact (Onward.of_transport closed.trans faults).trans (onward_endReading _)
  | writes _ hcall | replied _ hcall =>
    obtain ⟨closed, faults⟩ := WriteCall.lasts_of_step? hcall
    exact ⟨.refl, closed.trans, id, fun h ↦ absurd h goesOn, faults⟩

end Connection

end LanguageHub
