import LanguageHub.Proofs.Client.Handshake

/-!
# The use of a client

Operations with documents leave a client where it stands and say at most their own message. The
first shutdown says that it shuts down, and after that nothing more is said.
-/

namespace LanguageHub

variable {n now : Nat} {c d : Client}

/-- The operation works with documents. -/
def ClientTask.Serves : ClientTask → Prop
  | .document _ | .completion _ => True
  | _ => False

/-- The operation that is asked for works with documents. -/
def ClientRequest.Serves : ClientRequest → Prop
  | .document _ | .completion .. => True
  | _ => False

/-- The operation is not a handshake. -/
def ClientTask.Follows : ClientTask → Prop
  | .connect _ => False
  | _ => True

/-- A client that stands where it stood and that nobody has begun to end. -/
structure Client.Rests (c d : Client) : Prop extends Client.Stays c d where
  stopping : d.connection.stopping = c.connection.stopping

namespace ClientTask

variable {task : ClientTask} {p : Progress ClientTask ClientAnswer}

theorem Serves.follows (serves : task.Serves) : task.Follows := by
  cases task with
  | connect => exact serves.elim
  | document | completion | shutdown => exact trivial

/-- What is used of a client to begin an operation with documents. -/
theorem serves_start {r : ClientRequest} (used : r.Serves) (begins : start n now r c = (p, d)) :
    c.Rests d ∧ ∀ task, p = .running task → task.Serves := by
  cases r with
  | connect | shutdown => exact used.elim
  | document r =>
    have rests : c.Rests (c.startDocument (.operation n) r).2 := by
      refine ⟨Client.stays_startDocument _ r c, ?_⟩
      unfold Client.startDocument
      split
      · rfl
      · cases r <;> rfl
    simp only [start] at begins
    split at begins <;> next hstart =>
      cases begins
      rw [hstart] at rests
      exact ⟨rests, fun task h ↦ by cases h <;> exact trivial⟩
  | completion uri position =>
    have hcall : ∀ request, (Call.start (.operation n) request c.limit c.connection).2.stopping =
        c.connection.stopping := by
      intro request
      simp only [Call.start]
      split <;> rfl
    have rests : c.Rests (c.startCompletion (.operation n) uri position).2 := by
      refine ⟨Client.stays_startCompletion _ uri position c, ?_⟩
      have hcall := hcall (.completion uri position)
      unfold Client.startCompletion
      split
      · rfl
      · split <;> next hstart => rw [hstart] at hcall; exact hcall
    simp only [start] at begins
    split at begins <;> next hstart =>
      cases begins
      rw [hstart] at rests
      exact ⟨rests, fun task h ↦ by cases h <;> exact trivial⟩

/-- What a step of an operation with documents uses of a client. -/
theorem Serves.step (serves : task.Serves) (step : task.step? n now c = some (p, d)) :
    c.Rests d ∧ ∀ next, p = .running next → next.Serves := by
  cases task with
  | connect | shutdown => exact serves.elim
  | document call =>
    simp only [step?, Option.map_eq_some_iff, Prod.exists] at step
    obtain ⟨q, e, hstep, he⟩ := step
    have rests : c.Rests e := by
      refine ⟨Client.stays_of_stepNotice? hstep, ?_⟩
      obtain ⟨_, -, rfl⟩ := Client.spec_of_stepNotice? hstep
      rfl
    cases q <;> cases he <;> exact ⟨rests, fun next h ↦ by cases h <;> exact trivial⟩
  | completion k =>
    simp only [step?, Option.map_eq_some_iff, Prod.exists] at step
    obtain ⟨q, e, hstep, he⟩ := step
    have hcall : ∀ r connection,
        k.step? (.operation n) now c.connection = some (r, connection) →
        connection.stopping = c.connection.stopping := by
      intro r connection h
      cases Call.takes_of_step? h <;> rfl
    have rests : c.Rests e := by
      refine ⟨Client.stays_of_stepCompletion? hstep, ?_⟩
      unfold Client.stepCompletion? at hstep
      split at hstep
      · cases hstep
      · next h => cases hstep; exact hcall _ _ h
      · next h => cases hstep; exact hcall _ _ h
    cases q <;> cases he <;> exact ⟨rests, fun next h ↦ by cases h <;> exact trivial⟩

/-- An operation with documents begins nothing more. -/
theorem Serves.messages_shows (serves : task.Serves) :
    (task.shows n now c).messages = [] := by
  cases task with
  | connect | shutdown => exact serves.elim
  | document | completion =>
    simp only [shows, History.messages_map_wire, List.append_nil]

theorem Serves.not_ending (serves : task.Serves) : ¬ task.Ending := by
  cases task with
  | connect | shutdown => exact serves.elim
  | document | completion => exact id

/-- The messages of operations with documents are about documents. -/
theorem isOperation_startShows {r : ClientRequest} (used : r.Serves) :
    ∀ m ∈ (startShows n r c).messages, m.IsOperation := by
  cases r with
  | connect | shutdown => exact used.elim
  | document r =>
    simp only [startShows]
    split
    · cases r <;> simp [Connection.noticeShows, History.messages, Occurrence.message?,
        Client.documentNotice, ClientMessage.IsOperation]
    · simp [History.messages]
  | completion uri position =>
    simp only [startShows, Connection.callShows]
    split
    · split <;> simp [History.messages, Occurrence.message?, ClientMessage.IsOperation]
    · simp [History.messages]

/-! ### The shutdown of a client -/

/-- The first shutdown of a client that is ready. -/
theorem spec_of_startShutdown (begins : start n now .shutdown c = (p, d))
    (ready : c.phase = .ready) :
    (∀ task, p = .running task → task.Follows) ∧ d.phase = .shuttingDown ∧
      (startShows n .shutdown c).messages = [.notice .shutdown] := by
  simp only [start, Shutdown.start, ready] at begins
  cases begins
  refine ⟨fun task h ↦ ?_, rfl, ?_⟩
  · cases h
    exact trivial
  · simp only [startShows, ready]
    rfl

/-- A client that is shut down or has ended begins nothing more. -/
theorem spec_of_start_gone {r : ClientRequest} (begins : start n now r c = (p, d))
    (gone : c.phase = .shuttingDown ∨ c.phase = .terminated) (later : ∀ root, r ≠ .connect root) :
    (∀ task, p = .running task → task.Follows) ∧
      (d.phase = .shuttingDown ∨ d.phase = .terminated) ∧ startShows n r c = [] := by
  have unready := Client.isReady_eq_false_of_gone gone
  cases r with
  | connect root => exact absurd rfl (later root)
  | document | completion =>
    obtain ⟨rests, serves⟩ := serves_start (by exact trivial) begins
    exact ⟨fun task h ↦ (serves task h).follows, rests.phase ▸ gone, by simp [startShows, unready]⟩
  | shutdown =>
    simp only [start, Shutdown.start] at begins
    simp only [startShows]
    obtain gone | gone := gone <;>
    · rw [gone] at begins
      cases begins
      rw [gone]
      exact ⟨fun task h ↦ (by cases h), by simp, rfl⟩

/-- A shutdown begins nothing more. -/
theorem messages_shows_shutdown (k : Shutdown) :
    ((ClientTask.shutdown k).shows n now c).messages = [] := by
  cases k with
  | announcing due call =>
    simp only [shows, History.messages_append, History.messages_map_wire, List.nil_append]
    split
    · exact History.messages_map_wire _
    · rfl
  | terminating => simp only [shows, List.append_nil, History.messages_map_wire]

/-- What a step of an operation does to a client that is shut down or has ended. -/
theorem Follows.step (follows : task.Follows) (step : task.step? n now c = some (p, d))
    (gone : c.phase = .shuttingDown ∨ c.phase = .terminated) :
    (∀ next, p = .running next → next.Follows) ∧
      (d.phase = .shuttingDown ∨ d.phase = .terminated) ∧
      (task.shows n now c).messages = [] := by
  cases task with
  | connect => exact follows.elim
  | document | completion =>
    obtain ⟨rests, next⟩ := Serves.step (by exact trivial) step
    exact ⟨fun task h ↦ (next task h).follows, rests.phase ▸ gone,
      Serves.messages_shows (by exact trivial)⟩
  | shutdown k =>
    simp only [step?, Option.map_eq_some_iff, Prod.exists] at step
    obtain ⟨q, e, hstep, he⟩ := step
    have spec := Shutdown.spec_of_step? hstep
    cases q with
    | running k =>
      cases he
      exact ⟨fun task h ↦ by cases h; exact trivial, spec.phase ▸ gone,
        messages_shows_shutdown _⟩
    | finished =>
      cases he
      refine ⟨fun task h ↦ ?_, .inr spec.phase, messages_shows_shutdown _⟩
      cases h

end ClientTask

end LanguageHub
