import LanguageHub.Proofs.Client.Messages
import LanguageHub.Proofs.Connection.Steps

/-!
# The steps of a handshake

A handshake that asks goes on with its call. When the call has an outcome, the server is told that
the handshake is complete if it has accepted, and the client ends if not. An answer of the server
that the call returns was read after the client had asked.
-/

namespace LanguageHub

variable {a : Agent} {n now : Nat} {c d : Connection}

/-! ### The call -/

/-- A write that succeeds had nothing left to write. -/
theorem WriteCall.eq_of_succeeds {call : WriteCall} {t u : Transport}
    (step : call.step? a t = some (.finished (.ok ()), u)) : call = .writing [] := by
  generalize hn : (Progress.finished (Except.ok ()), u) = next at step
  cases WriteCall.takes_of_step? step with
  | opens | sends | refuses | fails => cases hn
  | completes => rfl

namespace Call

variable {k : Call}

/-- A call that begins while no other waits is the one that waits. -/
theorem spec_of_starts {request : Request} {limit : Option Duration}
    (starts : start a request limit c = (.running k, d)) (alone : c.table.pending = []) :
    k.id = c.nextId ∧ (∃ call, k.phase = .sending call) ∧ c.table.closed = false ∧
      d.stopping = c.stopping ∧ d.table.pending = [(k.id, k.ticket)] ∧
      d.table.fate? k.ticket = some .waiting := by
  have fresh : c.nextId ∉ c.table.ids := by simp [CallTable.ids, alone]
  cases hclosed : c.table.closed with
  | true =>
    simp only [start, CallTable.register_of_closed hclosed] at starts
    cases starts
  | false =>
    simp only [start, CallTable.register_of_fresh hclosed fresh] at starts
    cases starts
    refine ⟨rfl, ⟨_, rfl⟩, rfl, rfl, ?_, ?_⟩
    · rw [alone]
      rfl
    · simp [CallTable.fate?]

/-- A call that goes on keeps its place in the table. It waits once its request is written. -/
theorem spec_of_goesOn {k' : Call} (step : k.step? a now c = some (.running k', d)) :
    k'.id = k.id ∧ k'.ticket = k.ticket ∧ d.stopping = c.stopping ∧ d.table = c.table ∧
      ∀ due, k'.phase = .waiting due → k.writing? = some (.writing []) := by
  generalize hp : Progress.running k' = p at step
  cases takes_of_step? step with
  | sends sending hstep =>
    cases hp
    exact ⟨rfl, rfl, rfl, rfl, fun due waiting ↦ by cases waiting⟩
  | sent sending hstep =>
    cases hp
    refine ⟨rfl, rfl, rfl, rfl, fun _ _ ↦ ?_⟩
    rw [writing?, sending, WriteCall.eq_of_succeeds hstep]
  | unsent | answered | expires | lost => cases hp

/-- A call that returns a result waited for it, and the result was there. -/
theorem spec_of_returns {v : Json} (step : k.step? a now c = some (.finished (.ok v), d)) :
    d = c ∧ (∃ due, k.phase = .waiting due) ∧
      c.table.fate? k.ticket = some (.decided (.ok v)) := by
  generalize hp : Progress.finished (Except.ok v) = p at step
  cases takes_of_step? step with
  | answered waiting fate =>
    cases hp
    exact ⟨rfl, ⟨_, waiting⟩, fate⟩
  | sends | sent | unsent | expires | lost => cases hp

end Call

/-- The first call of a client while it goes on: no other call waits, and a result that is there for
it has come in a response that was read after the client had asked. -/
structure Asked (h : History) (k : Call) (rootUri : String) (table : CallTable) : Prop where
  said : h.messages = [.greeting k.id rootUri]
  sole : ∀ e ∈ table.pending, e = (k.id, k.ticket)
  answered : ∀ v, table.fate? k.ticket = some (.decided (.ok v)) → h.Answered k.id rootUri v

namespace Asked

variable {h shown : History} {k : Call} {rootUri : String} {table : CallTable}

/-- Nothing that concerns calls happens. -/
theorem append (asked : Asked h k rootUri table) (silent : shown.messages = []) :
    Asked (h ++ shown) k rootUri table where
  said := by rw [History.messages_append, asked.said, silent, List.append_nil]
  sole := asked.sole
  answered v fate := (asked.answered v fate).append shown

/-- The call goes on. -/
theorem goOn (asked : Asked h k rootUri table) {k' : Call} (id : k'.id = k.id)
    (ticket : k'.ticket = k.ticket) : Asked h k' rootUri table := by
  obtain ⟨said, sole, answered⟩ := asked
  rw [← id] at said answered
  rw [← id, ← ticket] at sole
  rw [← ticket] at answered
  exact ⟨said, sole, answered⟩

/-- A response is read. -/
theorem resolve (asked : Asked h k rootUri table)
    (begun : h.begun.Sublist (h.messages.map (·.frame))) (id : Int) (outcome : Outcome) :
    Asked (h ++ [.responded id outcome]) k rootUri (table.resolve id outcome).1 where
  said := by rw [History.messages_append, asked.said]; rfl
  sole e he := asked.sole e ((CallTable.mem_pending_take table id _ e).mp he).1
  answered v fate := by
    have silent : History.messages [.responded id outcome] = [] := rfl
    have kept := (asked.append silent).answered v
    unfold CallTable.resolve CallTable.take at fate
    cases hwaiting : table.waiting? id with
    | none =>
      rw [hwaiting] at fate
      exact kept fate
    | some ticket =>
      -- Only the first call waits, so the response is for it.
      rw [hwaiting] at fate
      obtain ⟨rfl, rfl⟩ := Prod.mk.inj (asked.sole _ (CallTable.mem_of_waiting? hwaiting))
      have settled := CallTable.fate?_settle table k.ticket (.decided outcome) k.ticket
      rw [if_pos rfl] at settled
      have fate := settled.symm.trans fate
      simp only [Option.map_eq_some_iff, Ticket.decided.injEq] at fate
      obtain ⟨_, _, rfl⟩ := fate
      rw [asked.said] at begun
      exact ⟨h, [], rfl, asked.said, begun⟩

/-- Every call that waits fails. -/
theorem failAll (asked : Asked h k rootUri table) (silent : shown.messages = [])
    (reason : String) : Asked (h ++ shown) k rootUri (table.failAll reason) where
  said := (asked.append silent).said
  sole := by simp
  answered v fate := by
    rw [CallTable.fate?_failAll] at fate
    split at fate
    · simp at fate
    · exact (asked.append silent).answered v fate

/-- The call returns what the server has accepted it with. -/
theorem accepted (asked : Asked h k rootUri c.table) {v : Json} {server : Option Party}
    (step : k.step? a now c = some (.finished (.ok v), d))
    (accepts : Connecting.serverOf v = .ok server) : h.Accepted k.id rootUri := by
  obtain ⟨-, -, fate⟩ := Call.spec_of_returns step
  exact ⟨v, server, asked.answered v fate, accepts⟩

end Asked

/-- A step of the task that reads resolves a call, fails all, or leaves the table alone. -/
theorem Connection.ReadingStep.table {shown : History} {notice : Option ServerNotice}
    (step : c.ReadingStep shown d notice) :
    d.table = c.table ∨ (∃ reason, d.table = c.table.failAll reason) ∨
      ∃ id outcome, shown = [.responded id outcome] ∧
        d.table = (c.table.resolve id outcome).1 := by
  cases step with
  | reads | replies | passes | writes | replied => exact .inl rfl
  | stops | givesUp | ends => exact .inr (.inl ⟨_, rfl⟩)
  | resolves => exact .inr (.inr ⟨_, _, rfl, rfl⟩)

/-- The task that reads tells nobody to stop. -/
theorem Connection.ReadingStep.stopping {shown : History} {notice : Option ServerNotice}
    (step : c.ReadingStep shown d notice) : d.stopping = c.stopping := by
  cases step <;> rfl

/-! ### The handshake -/

namespace Connecting

variable {c d : Client} {p : Progress Connecting (Except Failure Unit)}

/-- The client ends because the handshake has failed. -/
def Fails (p : Progress Connecting (Except Failure Unit)) : Prop :=
  ∃ f k, p = .running (.abandoning f k)

/-- The client does not become ready. -/
theorem Fails.unready {k : Connecting} {a : Agent} (fails : Fails p)
    (step : k.step? a now c = some (p, d)) (starting : c.phase = .starting) :
    d.phase ≠ .ready := by
  have spec := spec_of_step? step
  obtain ⟨f, k, rfl⟩ := fails
  have stays : d.phase = c.phase := spec.phase
  simp [stays, starting]

theorem fails_abandon (f : Failure) (c : Client) : Fails (abandon f c).1 := ⟨_, _, rfl⟩

/-- After the outcome of the first request the server is told that the handshake is complete, or
the handshake fails. -/
theorem cases_afterOutcome {outcome : Outcome}
    (after : afterOutcome (.operation n) outcome c = (p, d)) :
    (∃ v server call, outcome = .ok v ∧ serverOf v = .ok server ∧
      p = .running (.confirming server call) ∧ d.phase = c.phase ∧
      d.connection.stopping = c.connection.stopping ∧
      (ClientTask.outcomeShows n outcome).messages = [.notice .handshakeDone]) ∨
    (Fails p ∧ (ClientTask.outcomeShows n outcome).messages = []) := by
  unfold afterOutcome at after
  unfold ClientTask.outcomeShows
  cases outcome with
  | error f =>
    have fails := fails_abandon f c
    rw [show abandon f c = (p, d) from after] at fails
    exact .inr ⟨fails, rfl⟩
  | ok v =>
    cases hserver : serverOf v with
    | error f =>
      simp only [Except.bind, hserver] at after ⊢
      have fails := fails_abandon f c
      rw [after] at fails
      exact .inr ⟨fails, rfl⟩
    | ok server =>
      simp only [Except.bind, hserver] at after ⊢
      cases after
      exact .inl ⟨v, server, _, rfl, hserver, rfl, rfl, rfl, rfl⟩

/-- A handshake begins to ask, or it fails because the connection is closed. -/
theorem cases_start {request : Request} (begins : start (.operation n) request c = (p, d)) :
    (∃ k, p = .running (.asking k) ∧ d.phase = c.phase ∧
      Call.start (.operation n) request c.limit c.connection = (.running k, d.connection)) ∨
    (Fails p ∧ c.connection.table.closed = true) := by
  unfold start at begins
  split at begins
  · next hstart =>
    cases begins
    exact .inl ⟨_, rfl, rfl, hstart⟩
  · next outcome connection hstart =>
    obtain ⟨closed, f, rfl⟩ := Call.spec_of_refused hstart
    have fails := fails_abandon f { c with connection }
    rw [show abandon f { c with connection } = (p, d) from begins] at fails
    exact .inr ⟨fails, closed⟩

/-- A handshake that asks goes on with its call or with the outcome. -/
theorem cases_asking {k : Call} (step : (asking k).step? (.operation n) now c = some (p, d)) :
    (∃ k', k.step? (.operation n) now c.connection = some (.running k', d.connection) ∧
      p = .running (.asking k') ∧ d.phase = c.phase) ∨
    ∃ outcome connection,
      k.step? (.operation n) now c.connection = some (.finished outcome, connection) ∧
      afterOutcome (.operation n) outcome { c with connection } = (p, d) := by
  simp only [step?] at step
  split at step
  · cases step
  · next hstep =>
    cases step
    exact .inl ⟨_, hstep, rfl, rfl⟩
  · next hstep => exact .inr ⟨_, _, hstep, Option.some.inj step⟩

/-- Whether the server is still told, knows that the handshake is complete, or the handshake
fails. -/
theorem cases_confirming {server : Option Party} {call : WriteCall}
    (step : (confirming server call).step? (.operation n) now c = some (p, d)) :
    (∃ call', p = .running (.confirming server call') ∧ d.phase = c.phase ∧
      d.connection.stopping = c.connection.stopping) ∨
    (p = .finished (.ok ()) ∧ call = .writing [] ∧ d.phase = .ready ∧
      d.connection.stopping = c.connection.stopping) ∨ Fails p := by
  simp only [step?] at step
  split at step
  · cases step
  · next hstep =>
    cases step
    obtain ⟨_, -, rfl⟩ := Client.spec_of_stepNotice? hstep
    exact .inl ⟨_, rfl, rfl, rfl⟩
  · next e hstep =>
    cases step
    obtain ⟨_, hcall, rfl⟩ := Client.spec_of_stepNotice? hstep
    exact .inr (.inl ⟨rfl, WriteCall.eq_of_succeeds hcall, rfl, rfl⟩)
  · next f e hstep =>
    have fails := fails_abandon f e
    rw [Option.some.inj step] at fails
    exact .inr (.inr fails)

/-- A handshake that has failed goes on failing, and returns the failure. -/
theorem cases_abandoning {f : Failure} {k : Termination}
    (step : (abandoning f k).step? (.operation n) now c = some (p, d))
    (unready : c.phase ≠ .ready) :
    (Fails p ∨ p = .finished (.error f)) ∧ d.phase ≠ .ready := by
  have spec := spec_of_step? step
  simp only [step?] at step
  split at step
  · cases step
  · cases step
    exact ⟨.inl ⟨_, _, rfl⟩, spec.phase ▸ unready⟩
  · cases step
    refine ⟨.inr rfl, ?_⟩
    rw [spec.phase]
    exact fun h ↦ ClientPhase.noConfusion h

end Connecting

end LanguageHub
