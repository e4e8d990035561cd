import LanguageHub.Client.Session
import LanguageHub.Proofs.Connection.Reading

/-!
# What operations make of a client

Every operation of a client is a sequence of moves on its connection: the handshake, documents,
completions and the shutdown write to the server, wait for answers and close. So none of them
touches the task that reads or its stream. None touches the diagnostics that are kept either, a
process that is gone is not started again, and only operations with documents change their
versions.
-/

namespace LanguageHub

/-- The process of the client, if it has one, is gone. -/
def Client.ProcessGone (c : Client) : Prop := ∀ child, c.child = some child → child = .exited

/-- The task that reads, its stream and the diagnostics that are kept are left alone. -/
structure Client.Spares (c d : Client) : Prop where
  connection : Connection.Spares c.connection d.connection
  diagnostics : d.diagnostics = c.diagnostics

/-- What one who operates on a client makes of it. -/
structure Client.Moves (a : Agent) (c d : Client) : Prop where
  connection : Connection.Moves a c.connection d.connection
  diagnostics : d.diagnostics = c.diagnostics
  language : d.language = c.language
  limit : d.limit = c.limit
  gone : c.ProcessGone → d.ProcessGone

/-- The versions of the documents are left alone as well. -/
structure Client.Keeps (a : Agent) (c d : Client) : Prop extends Client.Moves a c d where
  versions : d.versions = c.versions

variable {a : Agent} {now : Nat} {c d e : Client}

namespace Client

/-- No operation touches the task that reads or the diagnostics that are kept. -/
theorem Moves.spares (moves : Moves a c d) : Spares c d :=
  ⟨moves.connection.spares, moves.diagnostics⟩

theorem Keeps.refl (c : Client) : Keeps a c c := ⟨⟨.refl, rfl, rfl, rfl, id⟩, rfl⟩

theorem Keeps.trans (first : Keeps a c d) (second : Keeps a d e) : Keeps a c e where
  connection := first.connection.trans second.connection
  diagnostics := second.diagnostics.trans first.diagnostics
  language := second.language.trans first.language
  limit := second.limit.trans first.limit
  gone := second.gone ∘ first.gone
  versions := second.versions.trans first.versions

/-- A change of the connection alone. -/
theorem Keeps.of_connection {connection : Connection}
    (moves : Connection.Moves a c.connection connection) : Keeps a c { c with connection } :=
  ⟨⟨moves, rfl, rfl, rfl, id⟩, rfl⟩

/-- The start of a document operation. -/
theorem moves_startDocument (a : Agent) (r : DocumentRequest) (c : Client) :
    Moves a c (c.startDocument a r).2 := by
  unfold startDocument
  split
  · exact (Keeps.refl c).toMoves
  · have moves := Connection.moves_startNotice a (c.documentNotice r).1 c.connection
    cases r <;> exact ⟨moves, rfl, rfl, rfl, id⟩

/-- A step of a notification. -/
theorem keeps_stepNotice? {call : WriteCall} {p : Progress WriteCall (Except Failure Unit)}
    (step : c.stepNotice? a call = some (p, d)) : Keeps a c d := by
  simp only [stepNotice?, Option.map_eq_some_iff, Prod.exists] at step
  obtain ⟨q, connection, hstep, he⟩ := step
  cases he
  exact .of_connection (Connection.moves_stepNotice? hstep)

/-- The start of a completion request. -/
theorem keeps_startCompletion (a : Agent) (uri : String) (position : Position) (c : Client) :
    Keeps a c (c.startCompletion a uri position).2 := by
  unfold startCompletion
  split
  · exact .refl c
  · have moves := Connection.moves_startCall a (.completion uri position) c.limit c.connection
    split <;> next hstart => rw [hstart] at moves; exact .of_connection moves

/-- A step of a completion request. -/
theorem keeps_stepCompletion? {call : Call}
    {p : Progress Call (Except Failure (List CompletionItem))}
    (step : c.stepCompletion? a now call = some (p, d)) : Keeps a c d := by
  unfold stepCompletion? at step
  split at step
  · cases step
  · next hstep =>
    cases step
    exact .of_connection (Connection.moves_stepCall? hstep)
  · next hstep =>
    cases step
    exact .of_connection (Connection.moves_stepCall? hstep)

end Client

open Client (Keeps)

/-! ### The end of a client -/

namespace Termination

/-- The start of an ending. -/
theorem keeps_start (a : Agent) (c : Client) : Keeps a c (start c).2 :=
  .of_connection (Connection.moves_startClosing a c.connection)

/-- A step of an ending. -/
theorem keeps_of_step? (a : Agent) {k : Termination} {p : Progress Termination Unit}
    (step : k.step? c = some (p, d)) : Keeps a c d := by
  cases k with
  | closing k =>
    simp only [step?] at step
    split at step
    · cases step
    · next hstep =>
      cases step
      exact .of_connection (Connection.moves_stepClosing? hstep)
    · next hstep =>
      cases step
      exact .of_connection (Connection.moves_stepClosing? hstep)
  | stoppingChild =>
    simp only [step?] at step
    split at step
    · next running =>
      cases step
      exact ⟨⟨.refl, rfl, rfl, rfl, fun gone ↦ Child.noConfusion (gone _ running)⟩, rfl⟩
    · cases step
    · cases step
      exact ⟨⟨.refl, rfl, rfl, rfl, id⟩, rfl⟩

end Termination

namespace Shutdown

/-- The start of a shutdown. -/
theorem keeps_start (a : Agent) (now : Nat) (c : Client) : Keeps a c (start a now c).2 := by
  unfold start
  split
  · exact .refl c
  · exact .refl c
  · exact ⟨⟨Connection.moves_startNotice a .shutdown c.connection, rfl, rfl, rfl, id⟩, rfl⟩

/-- A step of a shutdown. -/
theorem keeps_of_step? {k : Shutdown} {p : Progress Shutdown Unit}
    (step : k.step? a now c = some (p, d)) : Keeps a c d := by
  cases k with
  | announcing due call =>
    simp only [step?] at step
    split at step
    · next hstep =>
      cases step
      exact Client.keeps_stepNotice? hstep
    · next hstep =>
      cases step
      exact (Client.keeps_stepNotice? hstep).trans (Termination.keeps_start a _)
    · split at step
      · cases step
        -- The notification is given up: only the line of writers changes.
        have abandons : Keeps a c (c.mapConnection (·.mapTransport (WriteCall.abandon a))) :=
          .of_connection (.givesUp .refl)
        exact abandons.trans (Termination.keeps_start a _)
      · cases step
  | terminating k =>
    simp only [step?, Option.map_eq_some_iff, Prod.exists] at step
    obtain ⟨q, e, hstep, he⟩ := step
    have keeps := Termination.keeps_of_step? a hstep
    cases q <;> cases he <;> exact keeps

end Shutdown

/-! ### The beginning of a client -/

namespace Connecting

/-- The failure of a handshake. -/
theorem keeps_abandon (a : Agent) (f : Failure) (c : Client) : Keeps a c (abandon f c).2 :=
  Termination.keeps_start a c

/-- What follows the outcome of the first request. -/
theorem keeps_afterOutcome (a : Agent) (outcome : Outcome) (c : Client) :
    Keeps a c (afterOutcome a outcome c).2 := by
  unfold afterOutcome
  split
  · exact keeps_abandon a _ c
  · exact .of_connection (Connection.moves_startNotice a .handshakeDone c.connection)

/-- The start of a handshake. -/
theorem keeps_start (a : Agent) (greeting : Request) (c : Client) :
    Keeps a c (start a greeting c).2 := by
  have moves := Connection.moves_startCall a greeting c.limit c.connection
  unfold start
  split
  · next hstart =>
    rw [hstart] at moves
    exact .of_connection moves
  · next outcome connection hstart =>
    rw [hstart] at moves
    have first : Keeps a c { c with connection } := .of_connection moves
    exact first.trans (keeps_afterOutcome a outcome _)

/-- A step of a handshake. -/
theorem keeps_of_step? {k : Connecting} {p : Progress Connecting (Except Failure Unit)}
    (step : k.step? a now c = some (p, d)) : Keeps a c d := by
  cases k with
  | asking call =>
    simp only [step?] at step
    split at step
    · cases step
    · next hstep =>
      cases step
      exact .of_connection (Connection.moves_stepCall? hstep)
    · next outcome connection hstep =>
      have first : Keeps a c { c with connection } :=
        .of_connection (Connection.moves_stepCall? hstep)
      have second := keeps_afterOutcome a outcome { c with connection }
      rw [Option.some.inj step] at second
      exact first.trans second
  | confirming server call =>
    simp only [step?] at step
    split at step
    · cases step
    · next hstep =>
      cases step
      exact Client.keeps_stepNotice? hstep
    · next e hstep =>
      cases step
      have first := Client.keeps_stepNotice? hstep
      have second : Keeps a e { e with phase := .ready, server } :=
        ⟨⟨.refl, rfl, rfl, rfl, id⟩, rfl⟩
      exact first.trans second
    · next f e hstep =>
      have second := keeps_abandon a f e
      rw [Option.some.inj step] at second
      exact (Client.keeps_stepNotice? hstep).trans second
  | abandoning f k =>
    simp only [step?] at step
    split at step
    · cases step
    · next hstep =>
      cases step
      exact Termination.keeps_of_step? a hstep
    · next e hstep =>
      cases step
      exact (Termination.keeps_of_step? a hstep).trans (.of_connection (.drops .refl))

end Connecting

/-! ### All operations -/

namespace ClientTask

variable {n : Nat}

/-- The start of an operation other than one with a document. -/
theorem keeps_start (n now : Nat) {r : ClientRequest} (c : Client)
    (other : ∀ q, r ≠ .document q) : Keeps (.operation n) c (start n now r c).2 := by
  cases r with
  | connect root =>
    have keeps := Connecting.keeps_start (.operation n)
      (Connecting.greeting 0 (Uri.pathToUri "/" root)) c
    simp only [start]
    split <;> next hstart => rw [hstart] at keeps; exact keeps
  | document r => exact absurd rfl (other r)
  | completion uri position =>
    have keeps := Client.keeps_startCompletion (.operation n) uri position c
    simp only [start]
    split <;> next hstart => rw [hstart] at keeps; exact keeps
  | shutdown =>
    have keeps := Shutdown.keeps_start (.operation n) now c
    simp only [start]
    split <;> next hstart => rw [hstart] at keeps; exact keeps

/-- The start of an operation. -/
theorem moves_start (n now : Nat) (r : ClientRequest) (c : Client) :
    Client.Moves (.operation n) c (start n now r c).2 := by
  cases r with
  | document r =>
    have moves := Client.moves_startDocument (.operation n) r c
    simp only [start]
    split <;> next hstart => rw [hstart] at moves; exact moves
  | connect | completion | shutdown =>
    exact (keeps_start n now c fun _ ↦ ClientRequest.noConfusion).toMoves

/-- A step of an operation. -/
theorem keeps_of_step? {task : ClientTask} {p : Progress ClientTask ClientAnswer}
    (step : task.step? n now c = some (p, d)) : Keeps (.operation n) c d := by
  cases task with
  | connect k =>
    simp only [step?, Option.map_eq_some_iff, Prod.exists] at step
    obtain ⟨q, e, hstep, he⟩ := step
    have keeps := Connecting.keeps_of_step? hstep
    cases q <;> cases he <;> exact keeps
  | document k =>
    simp only [step?, Option.map_eq_some_iff, Prod.exists] at step
    obtain ⟨q, e, hstep, he⟩ := step
    have keeps := Client.keeps_stepNotice? hstep
    cases q <;> cases he <;> exact keeps
  | completion k =>
    simp only [step?, Option.map_eq_some_iff, Prod.exists] at step
    obtain ⟨q, e, hstep, he⟩ := step
    have keeps := Client.keeps_stepCompletion? hstep
    cases q <;> cases he <;> exact keeps
  | shutdown k =>
    simp only [step?, Option.map_eq_some_iff, Prod.exists] at step
    obtain ⟨q, e, hstep, he⟩ := step
    have keeps := Shutdown.keeps_of_step? hstep
    cases q <;> cases he <;> exact keeps

end ClientTask

end LanguageHub
