import LanguageHub.Client.Session
import LanguageHub.Proofs.Client.Operations
import LanguageHub.Proofs.Client.Phases
import LanguageHub.Proofs.Connection.Outcomes

/-!
# How operations of a client fail

A handshake that fails does so as a handshake, when the process of the server is gone. The other
operations of a client fail as calls and notifications do, or because the client is not ready.

A completion request fails because of the transport, when its time is over, by a response that is
an error, or by one whose result is no answer to a request for completions. In the last two cases
it is the first response to the request (`Client.fails_of_stepCompletion?`).
-/

namespace LanguageHub

namespace Client

variable {a : Agent} {now : Nat} {c d : Client} {f : Failure}

/-- An operation that is refused fails because of the transport. -/
private theorem transport_of_refusal? (refused : c.refusal? = some f) :
    ∃ reason, f = .transport reason := by
  unfold refusal? at refused
  split at refused <;> cases refused
  exact ⟨_, rfl⟩

/-- A document operation that fails when it begins does so because of the transport. -/
theorem transport_of_startDocument {r : DocumentRequest}
    (start : c.startDocument a r = (.finished (.error f), d)) :
    ∃ reason, f = .transport reason := by
  unfold startDocument at start
  split at start
  · next refused =>
    cases start
    exact transport_of_refusal? refused
  · cases start

/-- A completion request that ends when it begins has failed because of the transport. -/
theorem transport_of_startCompletion {uri : String} {position : Position}
    {answer : Except Failure (List CompletionItem)}
    (start : c.startCompletion a uri position = (.finished answer, d)) :
    ∃ reason, answer = .error (.transport reason) := by
  unfold startCompletion at start
  split at start
  · next refused =>
    cases start
    obtain ⟨reason, rfl⟩ := transport_of_refusal? refused
    exact ⟨reason, rfl⟩
  · split at start
    · cases start
    · next outcome connection call =>
      cases start
      obtain ⟨reason, rfl⟩ := Connection.transport_of_startCall call
      exact ⟨reason, rfl⟩

/-- What is made of the outcome of a completion request. -/
private theorem ofStart_of_itemsOf {outcome : Outcome}
    (plain : ∀ f, outcome = .error f → f.ofStart = false) (h : itemsOf outcome = .error f) :
    f.ofStart = false := by
  unfold itemsOf at h
  split at h
  · cases h
    exact plain f rfl
  · split at h <;> cases h
    rfl

/-- A completion request does not fail as the start of a client does. -/
theorem ofStart_of_stepCompletion? {call : Call} (plain : c.connection.table.Plain)
    (step : c.stepCompletion? a now call = some (.finished (.error f), d)) :
    f.ofStart = false := by
  unfold stepCompletion? at step
  split at step
  · cases step
  · cases step
  · next outcome connection hstep =>
    simp only [Option.some.injEq, Prod.mk.injEq, Progress.finished.injEq] at step
    refine ofStart_of_itemsOf (fun g same ↦ ?_) step.1
    rw [same] at hstep
    exact Connection.ofStart_of_stepCall? plain hstep

/-- The task that reads records no failure of the start of a client. -/
theorem plain_of_stepReading? {event : Option ClientEvent} (plain : c.connection.table.Plain)
    (step : c.stepReading? = some (d, event)) : d.connection.table.Plain := by
  unfold stepReading? at step
  split at step
  · cases step
  · next hstep =>
    cases step
    exact (Connection.readingStep_of_stepReading? hstep).plain plain
  · next notice hstep =>
    cases step
    have plain := (Connection.readingStep_of_stepReading? hstep).plain plain
    cases notice <;> exact plain

/-- A document operation fails because of the transport. -/
theorem transport_of_stepNotice? {call : WriteCall}
    (step : c.stepNotice? a call = some (.finished (.error f), d)) :
    ∃ reason, f = .transport reason := by
  simp only [stepNotice?, Option.map_eq_some_iff, Prod.exists, Prod.mk.injEq] at step
  obtain ⟨_, _, hcall, rfl, -⟩ := step
  exact Connection.transport_of_stepNotice? hcall

end Client

/-! ### Handshakes -/

variable {a : Agent} {now : Nat} {c d : Client} {f : Failure}

/-- When an ending has come to its end, the process is gone. -/
theorem Termination.processGone_of_step? {k : Termination}
    (step : k.step? c = some (.finished (), d)) : d.ProcessGone := by
  cases k with
  | closing k =>
    simp only [step?] at step
    split at step <;> cases step
  | stoppingChild =>
    simp only [step?] at step
    split at step
    · cases step
    · cases step
    · next running killed =>
      cases step
      intro child same
      cases child with
      | running => exact absurd same running
      | killed => exact absurd same killed
      | exited => rfl

namespace Connecting

variable {k : Connecting} {p : Progress Connecting (Except Failure Unit)}

/-- A handshake that has failed has failed as a handshake. -/
def Plain (k : Connecting) : Prop :=
  ∀ f termination, k = .abandoning f termination → ∃ reason, f = .handshake reason

/-- What a handshake fails with, for whatever reason. -/
theorem exists_failureOf (f : Failure) : ∃ reason, failureOf f = .handshake reason := by
  cases f <;> exact ⟨_, rfl⟩

/-- What follows the outcome of the first request. -/
theorem plain_afterOutcome {outcome : Outcome}
    (h : afterOutcome a outcome c = (.running k, d)) : k.Plain := by
  unfold afterOutcome abandon at h
  split at h
  · cases h
    rintro f termination same
    cases same
    exact exists_failureOf _
  · cases h
    rintro f termination same
    cases same

/-- The start of a handshake. -/
theorem plain_start {greeting : Request} (h : start a greeting c = (.running k, d)) :
    k.Plain := by
  unfold start at h
  split at h
  · cases h
    rintro f termination same
    cases same
  · exact plain_afterOutcome h

/-- A step of a handshake. If it fails, it does so as a handshake, and the process is gone. -/
theorem Plain.step (plain : k.Plain) (step : k.step? a now c = some (p, d)) :
    match p with
    | .running k => k.Plain
    | .finished (.ok _) => True
    | .finished (.error f) => (∃ reason, f = .handshake reason) ∧ d.ProcessGone := by
  cases k with
  | asking call =>
    simp only [step?] at step
    split at step
    · cases step
    · cases step
      rintro f termination same
      cases same
    · next outcome connection _ =>
      obtain ⟨-, k, running⟩ := spec_afterOutcome a outcome { c with connection }
      have same := Option.some.inj step
      rw [same] at running
      obtain rfl : p = .running k := running
      exact plain_afterOutcome same
  | confirming server call =>
    simp only [step?] at step
    split at step
    · cases step
    · cases step
      rintro f termination same
      cases same
    · cases step
      trivial
    · cases step
      rintro f termination same
      cases same
      exact exists_failureOf _
  | abandoning f k =>
    simp only [step?] at step
    split at step
    · cases step
    · cases step
      rintro g termination same
      cases same
      exact plain f k rfl
    · next e hstep =>
      cases step
      have gone : e.ProcessGone := Termination.processGone_of_step? hstep
      exact ⟨plain f k rfl, gone⟩

end Connecting

/-! ## Completion requests -/

/-- Why a completion request fails that is given a time and has received a first response. -/
inductive CompletionFails (limit : Option Duration) (answer? : Option Outcome) :
    Failure → Prop where
  | transport (reason : String) : CompletionFails limit answer? (.transport reason)
  | timeout {time : Duration} (limited : limit = some time) :
      CompletionFails limit answer? (.timeout time)
  | rpc {code : Int} {message : String} (answered : answer? = some (.error (.rpc code message))) :
      CompletionFails limit answer? (.rpc code message)
  | malformed {v : Json} {mismatch : Json.Mismatch} (answered : answer? = some (.ok v))
      (undecoded : CompletionAnswer.ofJson v = .error mismatch) :
      CompletionFails limit answer?
        (.protocol s!"malformed completion result: {mismatch.message}")

namespace Client

variable {a : Agent} {now : Nat} {c d : Client} {f : Failure} {call call' : Call}
  {answer? : Option Outcome}

/-- A completion request that was just begun has not been answered, and it is given the time of the
client. -/
theorem agrees_startCompletion {uri : String} {position : Position}
    (start : c.startCompletion a uri position = (.running call, d)) :
    d.connection.table.Agrees call.id call.ticket none ∧ call.limit = d.limit := by
  unfold startCompletion at start
  split at start
  · cases start
  · split at start
    · next hstart =>
      cases start
      exact Connection.agrees_startCall hstart
    · cases start

/-- A completion request that goes on is the same call as before. -/
theorem same_of_stepCompletion? (step : c.stepCompletion? a now call = some (.running call', d)) :
    call'.id = call.id ∧ call'.ticket = call.ticket ∧ call'.limit = call.limit := by
  unfold stepCompletion? at step
  split at step
  · cases step
  · next going connection hstep =>
    cases step
    generalize hp : Progress.running call' = p at hstep
    cases Call.takes_of_step? hstep with
    | sends | sent =>
      cases hp
      exact ⟨rfl, rfl, rfl⟩
    | unsent | answered | expires | lost => cases hp
  · cases step

/-- How a completion request fails with a step. -/
theorem fails_of_stepCompletion?
    (agrees : c.connection.table.Agrees call.id call.ticket answer?)
    (replies : ∀ g, answer? = some (.error g) → ∃ code message, g = .rpc code message)
    (step : c.stepCompletion? a now call = some (.finished (.error f), d)) :
    CompletionFails call.limit answer? f := by
  unfold stepCompletion? at step
  split at step
  · cases step
  · cases step
  · next outcome connection hstep =>
    simp only [Option.some.injEq, Prod.mk.injEq, Progress.finished.injEq] at step
    obtain ⟨failed, -⟩ := step
    have decided : answer? = some outcome ∨ (∃ reason, outcome = .error (.transport reason)) ∨
        ∃ time, call.limit = some time ∧ outcome = .error (.timeout time) := by
      obtain fate | other := Connection.cases_of_stepCall? hstep
      · exact (agrees.decided outcome fate).imp_right .inl
      · exact .inr other
    obtain answered | ⟨reason, rfl⟩ | ⟨time, limited, rfl⟩ := decided
    · cases outcome with
      | error g =>
        cases failed
        obtain ⟨code, message, rfl⟩ := replies f answered
        exact .rpc answered
      | ok v =>
        simp only [itemsOf] at failed
        split at failed
        · cases failed
        · next undecoded =>
          cases failed
          exact .malformed answered undecoded
    · cases failed
      exact .transport reason
    · cases failed
      exact .timeout limited

/-- A step of the task that reads is one of the connection. -/
theorem exists_stepReading? {event : Option ClientEvent}
    (step : c.stepReading? = some (d, event)) :
    d.limit = c.limit ∧ ∃ notice, c.connection.stepReading? = some (d.connection, notice) := by
  unfold stepReading? at step
  split at step
  · cases step
  · next hstep =>
    cases step
    exact ⟨rfl, _, hstep⟩
  · next notice hstep =>
    cases step
    cases notice <;> exact ⟨rfl, _, hstep⟩

end Client

end LanguageHub
