import LanguageHub.Connection.Session
import LanguageHub.Proofs.Transport.Writing

/-!
# The history of a connection

A run of a connection shows what was asked of it, what the task that reads decoded, and what went
on at the stream to the server, in the order in which it happened. From this history one can tell
the id of each call, the first response that carries this id after the call began, and the frames
on the wire.
-/

namespace LanguageHub

/-- Something that happens on a connection. -/
inductive Occurrence where
  /-- A call began under a number and took an id. -/
  | called (number : Nat) (id : Int) (request : Request)
  /-- A notification was begun under a number. -/
  | notified (number : Nat) (notice : Notice)
  /-- The task that reads decoded a response. -/
  | responded (id : Int) (outcome : Outcome)
  /-- The task that reads decoded a request of the server. -/
  | requested (id : Json)
  /-- A writer did something. -/
  | wire (event : WireEvent)

/-- What happened on a connection, in order. -/
abbrev History := List Occurrence

namespace Occurrence

/-- The id that the call with the given number took. -/
def idOf? (n : Nat) : Occurrence → Option Int
  | called m id _ => if m = n then some id else none
  | _ => none

/-- The id that a call took. -/
def callId? : Occurrence → Option Int
  | called _ id _ => some id
  | _ => none

/-- The outcome that a response to the given id carries. -/
def responseTo? (id : Int) : Occurrence → Option Outcome
  | responded i outcome => if i = id then some outcome else none
  | _ => none

/-- What a writer did. -/
def wireEvent? : Occurrence → Option WireEvent
  | wire event => some event
  | _ => none

end Occurrence

namespace History

/-- The id that the call with the given number took. -/
def idOf? (h : History) (n : Nat) : Option Int := h.findSome? (Occurrence.idOf? n)

/-- The ids that calls took, in the order in which the calls began. -/
def callIds (h : History) : List Int := h.filterMap Occurrence.callId?

/-- What the writers did. -/
def events (h : History) : List WireEvent := h.filterMap Occurrence.wireEvent?

/-- The frames that were begun on the wire, in order. -/
def wire (h : History) : List Shipment := WireEvent.wire h.events

/-- The id of the request that a frame on the wire is, if it was written by a call. -/
def requestId? (h : History) (x : Shipment) : Option Int :=
  match x.author with
  | .operation n => h.idOf? n
  | .reading => none

/-- The ids of the requests on the wire, in order. -/
def requestIds (h : History) : List Int := h.wire.filterMap h.requestId?

/-- The same place and outcome in a history with `k` more occurrences in front. -/
def later (k : Nat) (r : Nat × Outcome) : Nat × Outcome := (r.1 + k, r.2)

/-- The first response to an id: its place in the history and the outcome that it carries. -/
def firstResponse? (id : Int) : History → Option (Nat × Outcome)
  | [] => none
  | x :: h =>
    match x.responseTo? id with
    | some outcome => some (0, outcome)
    | none => (firstResponse? id h).map (later 1)

/-- The first response to a call behind its beginning. -/
def responseTo? (n : Nat) : History → Option (Nat × Outcome)
  | [] => none
  | x :: h =>
    match x.idOf? n with
    | some id => (firstResponse? id h).map (later 1)
    | none => (responseTo? n h).map (later 1)

variable {h : History} {n p : Nat} {id : Int} {outcome : Outcome}

@[simp]
theorem idOf?_append (h more : History) (n : Nat) :
    idOf? (h ++ more) n = (idOf? h n).or (idOf? more n) :=
  List.findSome?_append

@[simp]
theorem callIds_append (h more : History) : callIds (h ++ more) = callIds h ++ callIds more :=
  List.filterMap_append

@[simp]
theorem events_append (h more : History) : events (h ++ more) = events h ++ events more :=
  List.filterMap_append

@[simp]
theorem events_map_wire (log : List WireEvent) : events (log.map .wire) = log := by
  simp only [events, List.filterMap_map]
  exact List.filterMap_some

private theorem map_later_or (a b : Option (Nat × Outcome)) (k : Nat) :
    (a.or (b.map (later k))).map (later 1) = (a.map (later 1)).or (b.map (later (k + 1))) := by
  cases a with
  | some r => rfl
  | none =>
    cases b with
    | none => rfl
    | some r => rfl

/-- The response to an id in a longer history is the one that was there, or a later one. -/
theorem firstResponse?_append (id : Int) (h more : History) :
    firstResponse? id (h ++ more) =
      (firstResponse? id h).or ((firstResponse? id more).map (later h.length)) := by
  induction h with
  | nil =>
    cases hm : firstResponse? id more with
    | none => simp [firstResponse?, hm]
    | some r => simp [firstResponse?, hm, later]
  | cons x h ih =>
    simp only [List.cons_append, firstResponse?]
    cases x.responseTo? id with
    | some outcome => rfl
    | none => rw [ih, map_later_or, List.length_cons]

/-- The response to a call that has begun stays the same once it is there. -/
theorem responseTo?_append (called : idOf? h n = some id) (more : History) :
    responseTo? n (h ++ more) =
      (responseTo? n h).or ((firstResponse? id more).map (later h.length)) := by
  induction h with
  | nil => cases called
  | cons x h ih =>
    simp only [List.cons_append, responseTo?]
    simp only [idOf?, List.findSome?_cons] at called
    split at called
    · next hx =>
      cases called
      rw [hx]
      simp only [firstResponse?_append]
      rw [map_later_or, List.length_cons]
    · next hx =>
      rw [hx]
      simp only [ih called]
      rw [map_later_or, List.length_cons]

/-- There is no response to a call that has not begun. -/
theorem responseTo?_eq_none (fresh : idOf? h n = none) : responseTo? n h = none := by
  induction h with
  | nil => rfl
  | cons x h ih =>
    simp only [idOf?, List.findSome?_cons] at fresh
    split at fresh
    · cases fresh
    · next hx => simp only [responseTo?, hx, ih fresh, Option.map_none]

/-- The response to a call that has not begun comes later. -/
theorem responseTo?_append_of_fresh (fresh : idOf? h n = none) (more : History) :
    responseTo? n (h ++ more) = (responseTo? n more).map (later h.length) := by
  induction h with
  | nil =>
    cases hm : responseTo? n more with
    | none => simp [hm]
    | some r => simp [hm, later]
  | cons x h ih =>
    simp only [idOf?, List.findSome?_cons] at fresh
    split at fresh
    · cases fresh
    · next hx =>
      simp only [List.cons_append, responseTo?, hx, ih fresh]
      exact map_later_or none _ _

/-- What the response to an id is. -/
theorem getElem?_of_firstResponse? (found : firstResponse? id h = some (p, outcome)) :
    h[p]? = some (.responded id outcome) := by
  induction h generalizing p with
  | nil => cases found
  | cons x h ih =>
    simp only [firstResponse?] at found
    split at found
    · next o hx =>
      cases found
      cases x with
      | responded i o =>
        simp only [Occurrence.responseTo?] at hx
        split at hx
        · next hi =>
          cases hx
          rw [List.getElem?_cons_zero, hi]
        · cases hx
      | _ => cases hx
    · obtain ⟨r, hr, hp⟩ := Option.map_eq_some_iff.mp found
      cases hp
      exact ih hr

/-- The response to a call carries the id that the call took. -/
theorem getElem?_of_responseTo? (found : responseTo? n h = some (p, outcome)) :
    ∃ id, idOf? h n = some id ∧ h[p]? = some (.responded id outcome) := by
  induction h generalizing p with
  | nil => cases found
  | cons x h ih =>
    simp only [responseTo?] at found
    simp only [idOf?, List.findSome?_cons]
    split at found
    · next id hx =>
      obtain ⟨r, hr, hp⟩ := Option.map_eq_some_iff.mp found
      cases hp
      exact ⟨id, by rw [hx], List.getElem?_cons_succ.trans (getElem?_of_firstResponse? hr)⟩
    · next hx =>
      obtain ⟨r, hr, hp⟩ := Option.map_eq_some_iff.mp found
      cases hp
      rw [hx]
      exact ih hr

/-- The response to a call stays the same once it is there. -/
theorem responseTo?_append_of_some {r : Nat × Outcome} (found : responseTo? n h = some r)
    (more : History) : responseTo? n (h ++ more) = some r := by
  obtain ⟨id, called, _⟩ := getElem?_of_responseTo? found
  rw [responseTo?_append called, found, Option.some_or]

/-- The id of a call is one of the ids that calls took. -/
theorem mem_callIds (called : idOf? h n = some id) : id ∈ h.callIds := by
  obtain ⟨x, hx, hid⟩ := List.exists_of_findSome?_eq_some called
  refine List.mem_filterMap.mpr ⟨x, hx, ?_⟩
  cases x with
  | called m i request =>
    simp only [Occurrence.idOf?] at hid
    split at hid
    · exact hid
    · cases hid
  | _ => cases hid

/-! ### Occurrences that concern no call -/

/-- No call begins and no response is decoded. -/
def Silent (h : History) : Prop :=
  ∀ x ∈ h, (∀ n id request, x ≠ .called n id request) ∧ ∀ id outcome, x ≠ .responded id outcome

/-- What writers do concerns no call. -/
theorem silent_map_wire (log : List WireEvent) : Silent (log.map .wire) := by
  intro x hx
  obtain ⟨e, _, rfl⟩ := List.mem_map.mp hx
  exact ⟨fun _ _ _ ↦ Occurrence.noConfusion, fun _ _ ↦ Occurrence.noConfusion⟩

variable {more : History}

/-- No id is taken. -/
theorem Silent.idOf? (silent : Silent more) (n : Nat) : more.idOf? n = none := by
  refine List.findSome?_eq_none_iff.mpr fun x hx ↦ ?_
  cases x with
  | called m id request => exact absurd rfl ((silent _ hx).1 m id request)
  | _ => rfl

/-- No id is taken. -/
theorem Silent.callIds (silent : Silent more) : more.callIds = [] := by
  refine List.filterMap_eq_nil_iff.mpr fun x hx ↦ ?_
  cases x with
  | called m id request => exact absurd rfl ((silent _ hx).1 m id request)
  | _ => rfl

/-- No response is decoded. -/
theorem Silent.firstResponse? (silent : Silent more) (id : Int) :
    firstResponse? id more = none := by
  induction more with
  | nil => rfl
  | cons x more ih =>
    have hx : x.responseTo? id = none := by
      cases x with
      | responded i outcome =>
        exact absurd rfl ((silent _ List.mem_cons_self).2 i outcome)
      | _ => rfl
    simp only [History.firstResponse?, hx, ih fun y hy ↦ silent y (List.mem_cons_of_mem _ hy),
      Option.map_none]

/-- No call is answered. -/
theorem Silent.responseTo? (silent : Silent more) (h : History) (n : Nat) :
    responseTo? n (h ++ more) = responseTo? n h := by
  cases called : h.idOf? n with
  | some id =>
    rw [responseTo?_append called, silent.firstResponse?, Option.map_none, Option.or_none]
  | none =>
    rw [responseTo?_append_of_fresh called, responseTo?_eq_none called,
      responseTo?_eq_none (silent.idOf? n), Option.map_none]

/-- The beginning of a call gives no response to any call. -/
theorem responseTo?_called (silent : Silent more) (n : Nat) (id : Int) (request : Request)
    (m : Nat) :
    History.responseTo? m (h ++ .called n id request :: more) = History.responseTo? m h := by
  cases called : h.idOf? m with
  | some i =>
    have hnone : History.firstResponse? i (.called n id request :: more) = none := by
      simp only [History.firstResponse?, Occurrence.responseTo?, silent.firstResponse?,
        Option.map_none]
    rw [responseTo?_append called, hnone, Option.map_none, Option.or_none]
  | none =>
    have hnone : History.responseTo? m (.called n id request :: more) = none := by
      simp only [History.responseTo?]
      split
      · rw [silent.firstResponse?, Option.map_none]
      · rw [responseTo?_eq_none (silent.idOf? m), Option.map_none]
    rw [responseTo?_append_of_fresh called, hnone, responseTo?_eq_none called, Option.map_none]

/-- The beginning of a call takes an id for it. -/
theorem idOf?_called (fresh : h.idOf? n = none) (silent : Silent more) (id : Int)
    (request : Request) (m : Nat) :
    History.idOf? (h ++ .called n id request :: more) m = if m = n then some id else h.idOf? m := by
  have hmore : History.idOf? (.called n id request :: more) m =
      if m = n then some id else none := by
    have hrest := silent.idOf? m
    simp only [History.idOf?] at hrest ⊢
    simp only [List.findSome?_cons, Occurrence.idOf?, hrest]
    by_cases hmn : m = n
    · simp [hmn]
    · simp [hmn, Ne.symm hmn]
  rw [idOf?_append, hmore]
  by_cases hmn : m = n
  · simp [hmn, fresh]
  · simp [hmn]

/-- The id of a call that begins comes behind the others. -/
theorem callIds_called (h : History) (silent : Silent more) (n : Nat) (id : Int)
    (request : Request) :
    History.callIds (h ++ .called n id request :: more) = h.callIds ++ [id] := by
  rw [callIds_append]
  exact congrArg (h.callIds ++ id :: ·) silent.callIds

end History

end LanguageHub
