import LanguageHub.Failure
import LanguageHub.Json.Value

/-!
# Calls that wait for an answer

Each call registers under its id and receives a ticket. What becomes of a ticket is decided
once: by the answer under its id, by the removal of the id, by a later registration under the
same id, or by the end of all calls.
-/

namespace LanguageHub

/-- The outcome of a call. -/
abbrev Outcome := Except Failure Json

/-- What has become of a ticket. -/
inductive Ticket where
  /-- Nothing yet. -/
  | waiting
  /-- The call has an outcome. -/
  | decided (outcome : Outcome)
  /-- The entry is gone and no outcome will come. -/
  | forgotten

/-- The calls that wait for an answer. Tickets are numbered in the order of registration. -/
structure CallTable where
  /-- The ids with a waiting call, and the tickets of these calls. -/
  pending : List (Int × Nat) := []
  /-- What has become of each ticket. -/
  tickets : List Ticket := []
  /-- Whether no call is accepted any more. -/
  closed : Bool := false

namespace CallTable

/-- The ticket that waits under an id. -/
def waiting? (t : CallTable) (id : Int) : Option Nat :=
  (t.pending.find? fun entry ↦ entry.1 == id).map (·.2)

/-- What has become of a ticket. -/
def fate? (t : CallTable) (ticket : Nat) : Option Ticket := t.tickets[ticket]?

/-- Settle a ticket. -/
def settle (t : CallTable) (ticket : Nat) (fate : Ticket) : CallTable :=
  { t with tickets := t.tickets.set ticket fate }

/-- Take the call under an id out of the table and settle its ticket. -/
def take (t : CallTable) (id : Int) (fate : Ticket) : CallTable × Bool :=
  match t.waiting? id with
  | none => (t, false)
  | some ticket =>
    ({ t.settle ticket fate with pending := t.pending.filter fun entry ↦ entry.1 != id }, true)

/-- Deliver the answer to the call under an id; whether there was one. -/
def resolve (t : CallTable) (id : Int) (outcome : Outcome) : CallTable × Bool :=
  t.take id (.decided outcome)

/-- Forget the call under an id; whether there was one. -/
def remove (t : CallTable) (id : Int) : CallTable × Bool := t.take id .forgotten

/-- Register a call under an id and give it a ticket. A call that waited under the same id is
forgotten. -/
def register (t : CallTable) (id : Int) : Except Failure (CallTable × Nat) :=
  if t.closed then .error (.transport "connection closed")
  else
    let t := (t.remove id).1
    let ticket := t.tickets.length
    .ok ({ t with
      pending := t.pending ++ [(id, ticket)]
      tickets := t.tickets ++ [.waiting] }, ticket)

/-- End every waiting call for the given reason and accept no more. -/
def failAll (t : CallTable) (reason : String) : CallTable :=
  let failed := t.pending.foldl
    (fun t entry ↦ t.settle entry.2 (.decided (.error (.transport reason)))) t
  { failed with pending := [], closed := true }

/-- How many calls are waiting. -/
def size (t : CallTable) : Nat := t.pending.length

end CallTable

end LanguageHub
