import LanguageHub.Proofs.Client.Outgoing
import LanguageHub.Proofs.Client.Serving
import LanguageHub.Proofs.Connection.Moves

/-!
# The end of a client

Whatever comes of a client, its connection is not opened again, its task that reads does not begin
again, and a process that is gone stays gone (`ClientSession.Reachable.onward`). A client ends in
due form: the task that reads is told to stop, and when it has ended the transport and the table of
calls are closed, and the process is stopped. Each step of an ending that fits its client leads to
one that fits, or to a client that is gone (`Termination.Fits.step`), whatever happens beside it
(`Termination.Fits.onward`).
-/

namespace LanguageHub

variable {c d e : Client}

/-- What holds for good of the first client holds of the second. -/
structure Client.Onward (c d : Client) : Prop extends
    Connection.Onward c.connection d.connection where
  gone : c.ProcessGone → d.ProcessGone

namespace Client.Onward

theorem refl (c : Client) : Onward c c := ⟨.refl _, id⟩

theorem trans (first : Onward c d) (second : Onward d e) : Onward c e :=
  ⟨first.toOnward.trans second.toOnward, second.gone ∘ first.gone⟩

end Client.Onward

namespace ClientSession

variable {s t : ClientSession} {n : Nat}

theorem onward_start (s : ClientSession) (n : Nat) (r : ClientRequest) :
    s.client.Onward (s.start n r).client := by
  have moves := ClientTask.moves_start n s.now r s.client
  obtain ⟨p, hstart, -, -⟩ := start_spec s n r
  rw [hstart] at moves
  exact ⟨moves.connection.onward, moves.gone⟩

theorem onward_advance (step : s.advance? n = some t) : s.client.Onward t.client := by
  obtain ⟨task, p, -, hstep, -, -⟩ := advance_spec step
  have keeps := ClientTask.keeps_of_step? hstep
  exact ⟨keeps.connection.onward, keeps.gone⟩

theorem onward_read (step : s.advanceReading? = some t) : s.client.Onward t.client := by
  obtain ⟨⟨notice, reads⟩, -, -, -, -⟩ := read_spec step
  exact ⟨reads.onward, fun gone child same ↦ gone child ((child_of_read step).symm.trans same)⟩

theorem onward_event (s : ClientSession) (e : Event) : s.client.Onward (s.happen e).client := by
  cases e with
  | arrive | endInflow | deliver | breakSink => exact ⟨.of_transport id rfl, id⟩
  | tick | setCallback => exact .refl _
  | childExits =>
    refine ⟨.refl _, fun _ child exited ↦ ?_⟩
    simp only [happen, Option.map_eq_some_iff] at exited
    obtain ⟨_, _, rfl⟩ := exited
    rfl

/-- Nothing that happens undoes what holds for good. -/
theorem Step.onward (step : Step s t) : s.client.Onward t.client := by
  cases step with
  | start n r => exact onward_start s n r
  | advance n step => exact onward_advance step
  | read step => exact onward_read step
  | callbackFails step =>
    exact (onward_read step).trans ⟨Connection.onward_endReading _, id⟩
  | event e => exact onward_event s e

theorem Reachable.onward (reachable : Reachable s t) : s.client.Onward t.client := by
  induction reachable with
  | refl => exact .refl _
  | step _ next ih => exact ih.trans next.onward

end ClientSession

end LanguageHub

namespace LanguageHub

/-- A connection that is closed for good. -/
structure Connection.Over (c : Connection) : Prop where
  stopping : c.stopping = true
  ended : c.reading = .ended
  transport : c.transport.closed = true
  table : c.table.closed = true

theorem Connection.Over.isClosed {c : Connection} (closed : c.Over) : c.isClosed = true := by
  simp [Connection.isClosed, closed.transport]

theorem Connection.Over.onward {c d : Connection} (closed : c.Over) (onward : c.Onward d) :
    d.Over where
  stopping := onward.stopping closed.stopping
  ended := onward.ended closed.ended
  transport := onward.closed closed.transport
  table := onward.table.closed closed.table

/-- A client that has ended. -/
structure Client.Gone (c : Client) : Prop where
  phase : c.phase = .terminated
  connection : c.connection.Over
  process : c.ProcessGone

variable {a : Agent} {now latest : Nat} {c d : Client}

theorem Client.Gone.onward (gone : c.Gone) (onward : c.Onward d) (phase : d.phase = c.phase) :
    d.Gone where
  phase := phase.trans gone.phase
  connection := gone.connection.onward onward.toOnward
  process := onward.gone gone.process

/-- What happens to a client beside its handshake and its shutdown. -/
structure Client.Aside (c d : Client) : Prop where
  onward : c.Onward d
  phase : d.phase = c.phase
  going : c.connection.stopping = false → d.connection.stopping = false

/-! ### Endings -/

namespace Termination

variable {k : Termination} {p : Progress Termination Unit}

/-- What an ending has done to the client so far. -/
def Fits (c : Client) : Termination → Prop
  | closing .awaitingReader => c.connection.stopping = true
  | closing .ready => c.connection.stopping = true ∧ c.connection.reading = .ended
  | stoppingChild => c.connection.Over

/-- The first ending of a client stops the task that reads and waits for it. -/
theorem fits_start (going : c.connection.stopping = false) :
    (start c).1.Fits (start c).2 ∧ (start c).2.phase = c.phase := by
  have begins : start c = (.closing .awaitingReader, { c with connection.stopping := true }) := by
    simp [start, Closing.start, going]
  rw [begins]
  exact ⟨rfl, rfl⟩

/-- An ending fits whatever happens beside it. -/
theorem Fits.onward (fits : k.Fits c) (onward : c.Onward d) : k.Fits d := by
  cases k with
  | closing k =>
    cases k with
    | awaitingReader => exact onward.stopping fits
    | ready => exact ⟨onward.stopping fits.1, onward.ended fits.2⟩
  | stoppingChild => exact Connection.Over.onward fits onward.toOnward

/-- A step of an ending leads to an ending that fits or to the end. -/
theorem Fits.step (fits : k.Fits c) (step : k.step? c = some (p, d)) :
    match p with
    | .running next => next.Fits d
    | .finished _ => d.Gone := by
  cases k with
  | closing k =>
    cases k with
    | awaitingReader =>
      simp only [step?, Closing.step?] at step
      by_cases ended : c.connection.reading = .ended
      · simp only [ended, if_true] at step
        cases step
        exact ⟨fits, ended⟩
      · simp only [ended, if_false] at step
        cases step
    | ready =>
      cases step
      exact ⟨fits.1, fits.2, (Connection.lasts_close _).1, rfl⟩
  | stoppingChild =>
    have closed : c.connection.Over := fits
    simp only [step?] at step
    split at step
    · cases step
      exact closed
    · cases step
    · next running killed =>
      cases step
      refine ⟨rfl, closed, fun child same ↦ ?_⟩
      cases child with
      | running => exact absurd same running
      | killed => exact absurd same killed
      | exited => rfl

/-- When there is no process, only the task that reads can be in the way of an ending. -/
theorem Fits.exists_step (fits : k.Fits c) (alone : c.ProcessGone)
    (stopped : c.connection.stepReading? = none) : ∃ next, k.step? c = some next := by
  cases k with
  | closing k =>
    cases k with
    | awaitingReader =>
      have told : c.connection.stopping = true := fits
      -- The task that reads would end with its next step, so it has ended.
      have ended : c.connection.reading = .ended := by
        cases hreading : c.connection.reading with
        | ended => rfl
        | fetching | replying => simp [Connection.stepReading?, hreading, told] at stopped
      simp only [step?, Closing.step?, ended, if_true]
      exact ⟨_, rfl⟩
    | ready => exact ⟨_, rfl⟩
  | stoppingChild =>
    cases hchild : c.child with
    | none =>
      simp only [step?, hchild]
      exact ⟨_, rfl⟩
    | some child =>
      simp only [step?, hchild, alone child hchild]
      exact ⟨_, rfl⟩

end Termination

/-! ### Shutdowns -/

namespace Shutdown

variable {k : Shutdown} {p : Progress Shutdown Unit}

/-- What a shutdown has done to the client so far. It tells the server until the time `latest` at
the latest. -/
def Fits (latest : Nat) (c : Client) : Shutdown → Prop
  | announcing due _ => due ≤ latest ∧ c.connection.stopping = false
  | terminating k => k.Fits c

/-- The first shutdown begins to tell the server. -/
theorem fits_start (ready : c.phase = .ready) (going : c.connection.stopping = false)
    (begins : start a now c = (p, d)) :
    d.phase = .shuttingDown ∧ ∃ k, p = .running k ∧ k.Fits (now + patience.nanos) d := by
  simp only [start, ready] at begins
  cases begins
  exact ⟨rfl, _, rfl, Nat.le_refl _, going⟩

/-- A shutdown fits whatever happens beside it. -/
theorem Fits.aside (fits : k.Fits latest c) (aside : c.Aside d) : k.Fits latest d := by
  cases k with
  | announcing => exact ⟨fits.1, aside.going fits.2⟩
  | terminating => exact Termination.Fits.onward fits aside.onward

/-- A step of a shutdown leads to a shutdown that fits or to the end. -/
theorem Fits.step (fits : k.Fits latest c) (step : k.step? a now c = some (p, d)) :
    match p with
    | .running next => next.Fits latest d ∧ d.phase = c.phase
    | .finished _ => d.Gone := by
  cases k with
  | announcing due call =>
    obtain ⟨early, going⟩ := fits
    have tells {q : Progress WriteCall (Except Failure Unit)} {e : Client}
        (hstep : c.stepNotice? a call = some (q, e)) :
        e.connection.stopping = false ∧ e.phase = c.phase := by
      obtain ⟨_, -, rfl⟩ := Client.spec_of_stepNotice? hstep
      exact ⟨going, rfl⟩
    simp only [step?] at step
    split at step
    · next hstep =>
      cases step
      obtain ⟨going, phase⟩ := tells hstep
      exact ⟨⟨early, going⟩, phase⟩
    · next hstep =>
      cases step
      obtain ⟨going, phase⟩ := tells hstep
      obtain ⟨fits, same⟩ := Termination.fits_start going
      exact ⟨fits, same.trans phase⟩
    · split at step
      · cases step
        exact Termination.fits_start going
      · cases step
  | terminating k =>
    simp only [step?, Option.map_eq_some_iff, Prod.exists] at step
    obtain ⟨q, e, hstep, he⟩ := step
    have next := Termination.Fits.step fits hstep
    have spec := Termination.spec_of_step? hstep
    cases q with
    | running =>
      cases he
      exact ⟨next, spec.phase⟩
    | finished =>
      cases he
      exact next

/-- When there is no process, only the task that reads can be in the way of a shutdown that has had
its time. -/
theorem Fits.exists_step (fits : k.Fits latest c) (late : latest ≤ now) (alone : c.ProcessGone)
    (stopped : c.connection.stepReading? = none) : ∃ next, k.step? a now c = some next := by
  cases k with
  | announcing due call =>
    have passed : due ≤ now := Nat.le_trans fits.1 late
    simp only [step?]
    split
    · exact ⟨_, rfl⟩
    · exact ⟨_, rfl⟩
    · exact ⟨_, if_pos passed⟩
  | terminating k =>
    obtain ⟨next, hstep⟩ := Termination.Fits.exists_step fits alone stopped
    simp only [step?, hstep]
    exact ⟨_, rfl⟩

end Shutdown

end LanguageHub
