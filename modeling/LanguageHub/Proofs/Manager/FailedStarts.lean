import LanguageHub.Proofs.Manager.Acts
import LanguageHub.Proofs.Manager.Failures
import LanguageHub.Proofs.Manager.Starts

/-!
# Starts that fail

An operation that fails because there is no command for a language has changed nothing. One that
fails because the command cannot be run, or because the handshake failed, leaves nothing behind: no
process of a client that it has started, no client in the registry and no place at a gate. The next
operation on the language starts a client afresh.
-/

namespace LanguageHub

open ManagerOccurrence

namespace Obtaining

variable {L : String} {m n : Manager} {k now : Nat} {refusal : Refusal} {f : Failure}

end Obtaining

/-- The server changes nothing in the table of calls. -/
theorem ServerEvent.table_apply (e : ServerEvent) (c : Client) :
    (e.apply c).connection.table = c.connection.table := by
  cases e <;> rfl

namespace ManagerSession

variable {s₀ s t : ManagerSession} {acts new : List Act} {x : Act} {n : Nat} {L : String}
  {f : Failure} {refusal : Refusal}

/-- The failure that an operation has ended with, if it has failed. -/
def failure? (s : ManagerSession) (n : Nat) : Option Failure :=
  (s.tasks.answer? n).bind (·.failure?)

/-! ### Causes of failures -/

/-- No task that is going on has an answer, no answer of a server that was recorded is a failure of
the start of a client, and handshakes fail as handshakes. -/
structure Orderly (s : ManagerSession) : Prop where
  apart : s.tasks.Apart
  tables : ∀ i c, s.manager.client? i = some c → c.connection.table.Plain
  handshakes : s.tasks.All ManagerTask.Plain

/-- The tables of calls after a step of an operation. -/
private theorem Orderly.tables_of_moves (orderly : s.Orderly) {a : Agent} {about : String → Prop}
    (moves : s.manager.Moves a about t.manager) (i : Nat) (c : Client)
    (client : t.manager.client? i = some c) : c.connection.table.Plain :=
  moves.all_clients (P := fun c ↦ c.connection.table.Plain) (fun _ _ _ _ ↦ .empty)
    (fun _ _ plain moves ↦ moves.connection.plain plain) orderly.tables client

/-- The tables of calls after a change of one client. -/
private theorem Orderly.tables_setClient (orderly : s.Orderly) {i : Nat} {c d : Client}
    (client : s.manager.client? i = some c) (plain : d.connection.table.Plain) (j : Nat)
    (e : Client) (found : (s.manager.setClient i d).client? j = some e) :
    e.connection.table.Plain := by
  obtain ⟨-, rfl⟩ | ⟨-, found⟩ := Manager.eq_or_client?_of_setClient client found
  · exact plain
  · exact orderly.tables j e found

/-- Whatever happens next. -/
theorem Orderly.goes (orderly : s.Orderly) (next : s.Goes new t) : t.Orderly := by
  cases next with
  | start refusal n r fresh admitted managed =>
    have unused : n ∉ s.tasks.numbers := fun h ↦ fresh (List.mem_append_left _ h)
    have unanswered : s.tasks.answer? n = none :=
      Tasks.answer?_eq_none_iff.mpr fun h ↦ fresh (List.mem_append_right _ h)
    have moves : s.manager.Moves (.operation n) (fun _ ↦ True) (s.start refusal n r).manager := by
      rw [(s.start_eq refusal n r).1]
      exact ManagerTask.moves_start _ _ _ _ _ (fun _ _ ↦ trivial) (fun _ _ ↦ trivial)
        fun _ _ _ ↦ trivial
    refine ⟨?_, orderly.tables_of_moves moves, ?_⟩
    all_goals unfold ManagerSession.start; split
    · exact orderly.apart.start unused unanswered _
    · exact orderly.apart.finish n _
    · next hstart => exact orderly.handshakes.start unused (ManagerTask.plain_of_start hstart)
    · exact orderly.handshakes.finish _
  | advance refusal n step =>
    have tables : ∀ i c, t.manager.client? i = some c → c.connection.table.Plain := by
      obtain ⟨task, p, -, hstep, -⟩ := exists_of_advance? step
      have moves : s.manager.Moves (.operation n) (fun _ ↦ True) t.manager :=
        ManagerTask.moves_step? (fun _ _ _ _ ↦ trivial) hstep
      exact orderly.tables_of_moves moves
    simp only [advance?, Option.bind_eq_bind, Option.bind_eq_some_iff, Prod.exists] at step
    obtain ⟨task, going, p, m, hstep, h⟩ := step
    cases p with
    | running next =>
      cases h
      exact ⟨orderly.apart.update n next, tables,
        orderly.handshakes.update ((orderly.handshakes n task going).step hstep)⟩
    | finished answer =>
      cases h
      exact ⟨orderly.apart.finish n answer, tables, orderly.handshakes.finish answer⟩
  | read i step =>
    obtain ⟨c, d, event, client, hstep, hmanager, htasks⟩ := exists_stepReading? step
    have plain := Client.plain_of_stepReading? (orderly.tables i c client) hstep
    refine ⟨htasks ▸ orderly.apart, ?_, htasks ▸ orderly.handshakes⟩
    rw [hmanager]
    exact orderly.tables_setClient client plain
  | event e =>
    obtain ⟨htasks, hmanager | ⟨i, c, event, client, hmanager⟩⟩ := s.exists_apply e
    · refine ⟨htasks ▸ orderly.apart, ?_, htasks ▸ orderly.handshakes⟩
      rw [hmanager]
      exact orderly.tables
    · refine ⟨htasks ▸ orderly.apart, ?_, htasks ▸ orderly.handshakes⟩
      rw [hmanager]
      refine orderly.tables_setClient client ?_
      rw [event.table_apply]
      exact orderly.tables i c client

/-- Every record of a new manager is orderly. -/
theorem Record.orderly (record : Record s₀ acts s) (new : s₀.IsNew) : s.Orderly := by
  induction record with
  | begins =>
    have idle (n : Nat) : s₀.tasks.state? n = none := by
      simp only [Tasks.state?, new.running, List.find?_nil, Option.map_none]
    refine ⟨fun n going ↦ absurd (idle n) going, fun i c client ↦ ?_, fun n task going ↦ ?_⟩
    · simp [Manager.client?, new.clients] at client
    · rw [idle] at going
      cases going
  | goes record next ih => exact ih.goes next

end ManagerSession

end LanguageHub
