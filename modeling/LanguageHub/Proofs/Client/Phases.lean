import LanguageHub.Manager.Session

/-!
# Where clients stand

What each operation does to the phase of a client and to its process: the handshake makes a client
ready or ends it, a shutdown ends it, and everything else leaves it where it stands. A process that
does not run is never seen to run again, and that of a client that has ended does not run.
-/

namespace LanguageHub

namespace Client

/-- A client that stands where it stood; its process may have come to its end. -/
structure Stays (c d : Client) : Prop where
  language : d.language = c.language
  phase : d.phase = c.phase
  child : d.child = some .running → c.child = some .running

/-- A client that has ended. -/
structure Ends (c d : Client) : Prop where
  language : d.language = c.language
  phase : d.phase = .terminated
  child : d.child ≠ some .running

variable {a : Agent} {now : Nat} {c d e : Client}

theorem Stays.refl (c : Client) : Stays c c := ⟨rfl, rfl, id⟩

theorem Stays.trans (first : Stays c d) (second : Stays d e) : Stays c e where
  language := second.language.trans first.language
  phase := second.phase.trans first.phase
  child := fun running ↦ first.child (second.child running)

/-- A client that is shut down or has ended is not ready. -/
theorem isReady_eq_false_of_gone (gone : c.phase = .shuttingDown ∨ c.phase = .terminated) :
    c.isReady = false := by
  unfold isReady state
  obtain gone | gone := gone <;> simp [gone]

/-- A change of the connection alone. -/
theorem stays_connection (c : Client) (connection : Connection) :
    Stays c { c with connection } := ⟨rfl, rfl, id⟩

/-! ### What leaves a client where it stands -/

/-- A step of the task that reads. -/
theorem stays_of_stepReading? {event : Option ClientEvent}
    (step : c.stepReading? = some (d, event)) : Stays c d := by
  unfold stepReading? at step
  split at step
  · cases step
  · cases step
    exact stays_connection c _
  · next connection notice _ =>
    cases step
    cases notice <;> exact ⟨rfl, rfl, id⟩

/-- The start of a document operation. -/
theorem stays_startDocument (a : Agent) (r : DocumentRequest) (c : Client) :
    Stays c (c.startDocument a r).2 := by
  unfold startDocument
  split
  · exact .refl c
  · cases r <;> exact ⟨rfl, rfl, id⟩

/-- A step of a notification is one of its write, and changes nothing but the transport. -/
theorem spec_of_stepNotice? {call : WriteCall} {p : Progress WriteCall (Except Failure Unit)}
    (step : c.stepNotice? a call = some (p, d)) :
    ∃ transport, call.step? a c.connection.transport = some (p, transport) ∧
      d = { c with connection := { c.connection with transport } } := by
  simp only [stepNotice?, Connection.stepNotice?, Option.map_map, Option.map_eq_some_iff,
    Function.comp_apply, Prod.exists, Prod.mk.injEq] at step
  obtain ⟨_, transport, hcall, rfl, rfl⟩ := step
  exact ⟨transport, hcall, rfl⟩

/-- A step of a notification. -/
theorem stays_of_stepNotice? {call : WriteCall} {p : Progress WriteCall (Except Failure Unit)}
    (step : c.stepNotice? a call = some (p, d)) : Stays c d := by
  obtain ⟨_, -, rfl⟩ := spec_of_stepNotice? step
  exact stays_connection c _

/-- The start of a completion request. -/
theorem stays_startCompletion (a : Agent) (uri : String) (position : Position) (c : Client) :
    Stays c (c.startCompletion a uri position).2 := by
  unfold startCompletion
  split
  · exact .refl c
  · split <;> exact stays_connection c _

/-- A step of a completion request. -/
theorem stays_of_stepCompletion? {call : Call}
    {p : Progress Call (Except Failure (List CompletionItem))}
    (step : c.stepCompletion? a now call = some (p, d)) : Stays c d := by
  unfold stepCompletion? at step
  split at step
  · cases step
  · cases step
    exact stays_connection c _
  · cases step
    exact stays_connection c _

end Client

open Client

variable {a : Agent} {now : Nat} {c d : Client}

/-- What a server does. -/
theorem ServerEvent.stays (e : ServerEvent) (c : Client) : Stays c (e.apply c) := by
  cases e with
  | arrive | endInflow | deliver | breakSink => exact stays_connection c _
  | exit =>
    refine ⟨rfl, rfl, fun running ↦ ?_⟩
    simp only [apply, Option.map_eq_some_iff] at running
    obtain ⟨_, _, h⟩ := running
    cases h

/-! ### The end of a client -/

/-- A step of an ending leaves the client where it stands until it ends it. -/
theorem Termination.spec_of_step? {k : Termination} {p : Progress Termination Unit}
    (step : k.step? c = some (p, d)) :
    match p with
    | .running _ => Stays c d
    | .finished _ => Ends c d := by
  cases k with
  | closing k =>
    simp only [step?] at step
    split at step
    · cases step
    · cases step
      exact stays_connection c _
    · cases step
      exact stays_connection c _
  | stoppingChild =>
    simp only [step?] at step
    split at step
    · cases step
      exact ⟨rfl, rfl, fun running ↦ by cases running⟩
    · cases step
    · next alive _ =>
      cases step
      exact ⟨rfl, rfl, alive⟩

/-- The start of a shutdown does something if the client is neither shut down nor has ended. -/
theorem Shutdown.spec_start (a : Agent) (now : Nat) (c : Client) :
    match Shutdown.start a now c with
    | (.running _, d) => d.language = c.language ∧ d.phase = .shuttingDown ∧ d.child = c.child
    | (.finished _, d) => d = c ∧ (c.phase = .shuttingDown ∨ c.phase = .terminated) := by
  unfold Shutdown.start
  cases c.phase with
  | starting | ready => exact ⟨rfl, rfl, rfl⟩
  | shuttingDown => exact ⟨rfl, .inl rfl⟩
  | terminated => exact ⟨rfl, .inr rfl⟩

/-- A step of a shutdown leaves the client where it stands until it ends it. -/
theorem Shutdown.spec_of_step? {k : Shutdown} {p : Progress Shutdown Unit}
    (step : k.step? a now c = some (p, d)) :
    match p with
    | .running _ => Stays c d
    | .finished _ => Ends c d := by
  have terminates : ∀ e : Client, Stays e (Shutdown.terminate e).2 := fun e ↦ stays_connection e _
  cases k with
  | announcing due call =>
    simp only [step?] at step
    split at step
    · next hstep =>
      cases step
      exact stays_of_stepNotice? hstep
    · next hstep =>
      cases step
      exact (stays_of_stepNotice? hstep).trans (terminates _)
    · split at step
      · cases step
        exact (stays_connection c _).trans (terminates _)
      · cases step
  | terminating k =>
    simp only [step?, Option.map_eq_some_iff, Prod.exists] at step
    obtain ⟨q, e, hstep, he⟩ := step
    have spec := Termination.spec_of_step? hstep
    cases q <;> cases he <;> exact spec

/-! ### The beginning of a client -/

namespace Connecting

/-- What follows the outcome of the first request leaves the client where it stands, and the
handshake goes on. -/
theorem spec_afterOutcome (a : Agent) (outcome : Outcome) (c : Client) :
    Stays c (afterOutcome a outcome c).2 ∧
      ∃ k, (afterOutcome a outcome c).1 = .running k := by
  unfold afterOutcome
  split
  · exact ⟨stays_connection c _, _, rfl⟩
  · exact ⟨stays_connection c _, _, rfl⟩

/-- The start of a handshake leaves the client where it stands, and the handshake goes on. -/
theorem spec_start (a : Agent) (greeting : Request) (c : Client) :
    Stays c (start a greeting c).2 ∧ ∃ k, (start a greeting c).1 = .running k := by
  unfold start
  split
  · exact ⟨stays_connection c _, _, rfl⟩
  · next outcome connection _ =>
    obtain ⟨stays, running⟩ := spec_afterOutcome a outcome { c with connection }
    exact ⟨(stays_connection c connection).trans stays, running⟩

/-- A step of a handshake leaves the client where it stands until it makes it ready or ends it. -/
theorem spec_of_step? {k : Connecting} {p : Progress Connecting (Except Failure Unit)}
    (step : k.step? a now c = some (p, d)) :
    match p with
    | .running _ => Stays c d
    | .finished (.ok _) => d.language = c.language ∧ d.phase = .ready ∧ d.child = c.child
    | .finished (.error _) => Ends c d := by
  cases k with
  | asking call =>
    simp only [step?] at step
    split at step
    · cases step
    · cases step
      exact stays_connection c _
    · next outcome connection _ =>
      obtain ⟨stays, k, running⟩ := spec_afterOutcome a outcome { c with connection }
      rw [Option.some.inj step] at stays running
      obtain rfl : p = .running k := running
      exact (stays_connection c connection).trans stays
  | confirming server call =>
    simp only [step?] at step
    split at step
    · cases step
    · next hstep =>
      cases step
      exact stays_of_stepNotice? hstep
    · next e hstep =>
      cases step
      obtain ⟨_, -, rfl⟩ := spec_of_stepNotice? hstep
      exact ⟨rfl, rfl, rfl⟩
    · next hstep =>
      cases step
      exact (stays_of_stepNotice? hstep).trans (stays_connection _ _)
  | abandoning f k =>
    simp only [step?] at step
    split at step
    · cases step
    · next hstep =>
      cases step
      exact Termination.spec_of_step? hstep
    · next e hstep =>
      cases step
      obtain ⟨language, phase, child⟩ := Termination.spec_of_step? hstep
      exact ⟨language, phase, child⟩

end Connecting

end LanguageHub
