import LanguageHub.CallTable
import Mathlib.Data.List.Nodup

/-!
# The table of waiting calls

A sound table has one ticket for each waiting id and one waiting id for each ticket, the tickets
of the waiting ids are undecided, and nothing waits once the table is closed. What was decided
stays decided. In a tidy table every undecided ticket has its id.
-/

namespace LanguageHub.CallTable

variable {t : CallTable} {id : Int} {ticket : Nat}

/-- The ids with a waiting call. -/
def ids (t : CallTable) : List Int := t.pending.map (·.1)

/-- What holds of every table that starts empty and is used through its operations. -/
structure Sound (t : CallTable) : Prop where
  ids_nodup : t.ids.Nodup
  tickets_nodup : (t.pending.map (·.2)).Nodup
  waiting : ∀ e ∈ t.pending, t.fate? e.2 = some .waiting
  closed : t.closed = true → t.pending = []

/-- Nothing waits in an empty table. -/
theorem Sound.empty : Sound {} where
  ids_nodup := List.nodup_nil
  tickets_nodup := List.nodup_nil
  waiting := by simp
  closed := fun _ ↦ rfl

/-- The id of a waiting call is an id of the table. -/
theorem mem_ids_of_mem (h : (id, ticket) ∈ t.pending) : id ∈ t.ids :=
  List.mem_map_of_mem (f := (·.1)) h

/-- An id under which nothing waits is no id of the table. -/
theorem waiting?_eq_none_iff : t.waiting? id = none ↔ id ∉ t.ids := by
  simp only [waiting?, Option.map_eq_none_iff, List.find?_eq_none, beq_iff_eq, ids, List.mem_map,
    not_exists, not_and]

/-- A ticket that waits under an id is in the table with it. -/
theorem mem_of_waiting? (h : t.waiting? id = some ticket) : (id, ticket) ∈ t.pending := by
  simp only [waiting?, Option.map_eq_some_iff] at h
  obtain ⟨e, he, rfl⟩ := h
  have hid : e.1 = id := by simpa using List.find?_some he
  rw [← hid]
  exact List.mem_of_find?_eq_some he

/-- In a sound table the ticket under an id is the one it was registered with. -/
theorem Sound.waiting?_eq (s : Sound t) (h : (id, ticket) ∈ t.pending) :
    t.waiting? id = some ticket := by
  cases hf : t.pending.find? fun e ↦ e.1 == id with
  | none => exact absurd (mem_ids_of_mem h) (waiting?_eq_none_iff.mp (by simp [waiting?, hf]))
  | some e =>
    have hid : e.1 = id := by simpa using List.find?_some hf
    have he : e = (id, ticket) :=
      List.inj_on_of_nodup_map s.ids_nodup (List.mem_of_find?_eq_some hf) h hid
    simp [waiting?, hf, he]

/-- Settling a ticket says what becomes of it and of no other. -/
theorem fate?_settle (t : CallTable) (ticket : Nat) (fate : Ticket) (k : Nat) :
    (t.settle ticket fate).fate? k =
      if k = ticket then (t.fate? k).map fun _ ↦ fate else t.fate? k := by
  simp only [settle, fate?, List.getElem?_set]
  split
  · next h =>
    subst h
    by_cases hlt : ticket < t.tickets.length <;> simp [hlt]
  · next h => rw [if_neg (Ne.symm h)]

/-! ### Taking a call out -/

/-- Nothing happens to a table without the id. -/
theorem take_of_notMem (h : id ∉ t.ids) (fate : Ticket) : t.take id fate = (t, false) := by
  simp only [take, waiting?_eq_none_iff.mpr h]

/-- A call that waits is taken out and its ticket is settled. -/
theorem Sound.take_eq (s : Sound t) (h : (id, ticket) ∈ t.pending) (fate : Ticket) :
    t.take id fate = ({ t.settle ticket fate with
      pending := t.pending.filter fun e ↦ e.1 != id }, true) := by
  simp only [take, s.waiting?_eq h]

/-- The other calls go on waiting. -/
theorem mem_pending_take (t : CallTable) (id : Int) (fate : Ticket) (e : Int × Nat) :
    e ∈ (t.take id fate).1.pending ↔ e ∈ t.pending ∧ e.1 ≠ id := by
  simp only [take]
  split
  · next h =>
    refine ⟨fun he ↦ ⟨he, fun hid ↦ ?_⟩, And.left⟩
    exact waiting?_eq_none_iff.mp h (hid ▸ List.mem_map_of_mem (f := (·.1)) he)
  · simp

/-- No call waits under the id any more. -/
theorem notMem_ids_take (t : CallTable) (id : Int) (fate : Ticket) :
    id ∉ (t.take id fate).1.ids := by
  simp only [ids, List.mem_map, not_exists, not_and]
  exact fun e he ↦ ((mem_pending_take t id fate e).mp he).2

/-- Taking a call out does not close the table. -/
@[simp]
theorem closed_take (t : CallTable) (id : Int) (fate : Ticket) :
    (t.take id fate).1.closed = t.closed := by
  simp only [take]
  split <;> rfl

/-- The ticket of the call that is taken out is settled. -/
theorem Sound.fate?_take (s : Sound t) (h : (id, ticket) ∈ t.pending) (fate : Ticket) :
    (t.take id fate).1.fate? ticket = some fate := by
  rw [s.take_eq h]
  exact (fate?_settle t ticket fate ticket).trans (by simp [s.waiting _ h])

/-- The tickets of the other calls are as before. -/
theorem Sound.fate?_take_other (s : Sound t) {k : Nat} (fate : Ticket)
    (h : (id, k) ∉ t.pending) : (t.take id fate).1.fate? k = t.fate? k := by
  by_cases hid : id ∈ t.ids
  · obtain ⟨⟨i, j⟩, he, rfl⟩ := List.mem_map.mp hid
    have hk : k ≠ j := fun hk ↦ h (hk ▸ he)
    rw [s.take_eq he]
    exact (fate?_settle t j fate k).trans (if_neg hk)
  · rw [take_of_notMem hid]

/-- What was decided stays decided. -/
theorem Sound.decided_take (s : Sound t) {k : Nat} {o : Outcome} (fate : Ticket)
    (h : t.fate? k = some (.decided o)) : (t.take id fate).1.fate? k = some (.decided o) := by
  rw [s.fate?_take_other fate, h]
  intro he
  have := s.waiting _ he
  simp only [h, Option.some.injEq, reduceCtorEq] at this

/-- A sound table stays sound. -/
theorem Sound.take (s : Sound t) (id : Int) (fate : Ticket) : Sound (t.take id fate).1 := by
  by_cases hid : id ∈ t.ids
  · obtain ⟨⟨i, j⟩, he, rfl⟩ := List.mem_map.mp hid
    have hsub : ((t.take i fate).1.pending).Sublist t.pending := by
      rw [s.take_eq he]
      exact List.filter_sublist
    refine ⟨s.ids_nodup.sublist (hsub.map _), s.tickets_nodup.sublist (hsub.map _), ?_, ?_⟩
    · intro e hmem
      obtain ⟨hmem, hne⟩ := (mem_pending_take t i fate e).mp hmem
      rw [s.fate?_take_other fate, s.waiting e hmem]
      intro h
      exact hne (congrArg (·.1) (List.inj_on_of_nodup_map s.tickets_nodup hmem h rfl))
    · intro hc
      rw [closed_take] at hc
      simp [s.closed hc] at he
  · rw [take_of_notMem hid]
    exact s

/-! ### Registering a call -/

/-- A closed table accepts no call. -/
theorem register_of_closed (h : t.closed = true) (id : Int) :
    t.register id = .error (.transport "connection closed") := by
  simp only [register, h, if_true]

/-- A table that is not closed accepts a call. -/
theorem register_of_open (h : t.closed = false) (id : Int) :
    ∃ u ticket, t.register id = .ok (u, ticket) := by
  simp only [register, h, Bool.false_eq_true, if_false]
  exact ⟨_, _, rfl⟩

/-- A fresh id is put behind the others with a ticket of its own. -/
theorem register_of_fresh (h : t.closed = false) (fresh : id ∉ t.ids) :
    t.register id = .ok ({ t with
      pending := t.pending ++ [(id, t.tickets.length)]
      tickets := t.tickets ++ [.waiting] }, t.tickets.length) := by
  simp only [register, h, remove, take_of_notMem fresh]
  rfl

/-- What was decided stays decided. -/
theorem fate?_append {k : Nat} {f : Ticket} (h : t.fate? k = some f) (more : List Ticket)
    (pending : List (Int × Nat)) :
    fate? { t with pending, tickets := t.tickets ++ more } k = some f := by
  obtain ⟨hlt, _⟩ := List.getElem?_eq_some_iff.mp h
  exact (List.getElem?_append_left hlt).trans h

/-- A sound table stays sound. -/
theorem Sound.register (s : Sound t) (h : t.closed = false) (fresh : id ∉ t.ids) :
    Sound { t with
      pending := t.pending ++ [(id, t.tickets.length)]
      tickets := t.tickets ++ [.waiting] } where
  ids_nodup := by
    simp only [ids, List.map_append, List.map_cons, List.map_nil]
    exact List.nodup_append.mpr ⟨s.ids_nodup, by simp, fun i hi j hj hij ↦ by
      simp only [List.mem_singleton] at hj
      exact fresh (hj ▸ hij ▸ hi)⟩
  tickets_nodup := by
    simp only [List.map_append, List.map_cons, List.map_nil]
    refine List.nodup_append.mpr ⟨s.tickets_nodup, by simp, fun i hi j hj hij ↦ ?_⟩
    obtain ⟨e, he, rfl⟩ := List.mem_map.mp hi
    obtain ⟨hlt, _⟩ := List.getElem?_eq_some_iff.mp (s.waiting e he)
    simp only [List.mem_singleton] at hj
    omega
  waiting := by
    intro e he
    rcases List.mem_append.mp he with he | he
    · exact fate?_append (s.waiting e he) _ _
    · simp only [List.mem_singleton] at he
      simp [he, fate?]
  closed := fun hc ↦ by simp [h] at hc

/-! ### Ending all calls -/

private theorem fate?_foldl (fate : Ticket) (k : Nat) :
    ∀ (l : List (Int × Nat)) (t : CallTable),
      (l.foldl (fun t e ↦ t.settle e.2 fate) t).fate? k =
        if k ∈ l.map (·.2) then (t.fate? k).map fun _ ↦ fate else t.fate? k
  | [], t => by simp
  | e :: l, t => by
    rw [List.foldl_cons, fate?_foldl fate k l, fate?_settle]
    by_cases he : k = e.2 <;> by_cases hl : k ∈ l.map (·.2) <;>
      simp [he, hl, Option.map_map, Function.comp_def]

/-- Every waiting ticket is decided, the others are as before. -/
theorem fate?_failAll (t : CallTable) (reason : String) (k : Nat) :
    (t.failAll reason).fate? k =
      if k ∈ t.pending.map (·.2) then
        (t.fate? k).map fun _ ↦ .decided (.error (.transport reason))
      else t.fate? k :=
  fate?_foldl _ k t.pending t

/-- No call waits any more. -/
@[simp]
theorem pending_failAll (t : CallTable) (reason : String) : (t.failAll reason).pending = [] := rfl

/-- A call that waited has failed. -/
theorem Sound.fate?_failAll (s : Sound t) (h : (id, ticket) ∈ t.pending) (reason : String) :
    (t.failAll reason).fate? ticket = some (.decided (.error (.transport reason))) := by
  rw [CallTable.fate?_failAll, if_pos (List.mem_map_of_mem (f := (·.2)) h), s.waiting _ h]
  rfl

/-- What was decided stays decided. -/
theorem Sound.decided_failAll (s : Sound t) {k : Nat} {o : Outcome} (reason : String)
    (h : t.fate? k = some (.decided o)) :
    (t.failAll reason).fate? k = some (.decided o) := by
  rw [CallTable.fate?_failAll, if_neg, h]
  intro hk
  obtain ⟨e, he, rfl⟩ := List.mem_map.mp hk
  have := s.waiting e he
  simp only [h, Option.some.injEq, reduceCtorEq] at this

/-- A table in which every call has ended is sound. -/
theorem Sound.failAll (t : CallTable) (reason : String) : Sound (t.failAll reason) where
  ids_nodup := List.nodup_nil
  tickets_nodup := List.nodup_nil
  waiting := by simp
  closed := fun _ ↦ rfl

/-! ### Tables without lost tickets -/

/-- What holds of every table besides: whoever waits can be reached. -/
structure Tidy (t : CallTable) : Prop extends Sound t where
  entered : ∀ k, t.fate? k = some .waiting → ∃ id, (id, k) ∈ t.pending

theorem Tidy.empty : Tidy {} := ⟨.empty, by simp [fate?]⟩

/-- Nobody waits in a table that is closed. -/
theorem Tidy.fate?_ne_waiting (tidy : Tidy t) (closed : t.closed = true) (k : Nat) :
    t.fate? k ≠ some .waiting := by
  intro waiting
  obtain ⟨_, mem⟩ := tidy.entered k waiting
  simp [tidy.closed closed] at mem

/-- A call is taken out, and something has become of it. -/
theorem Tidy.take (tidy : Tidy t) (id : Int) {fate : Ticket} (settled : fate ≠ .waiting) :
    Tidy (t.take id fate).1 := by
  refine ⟨tidy.toSound.take id fate, fun k waiting ↦ ?_⟩
  by_cases hid : id ∈ t.ids
  · obtain ⟨⟨i, j⟩, he, rfl⟩ := List.mem_map.mp hid
    have other : k ≠ j := by
      rintro rfl
      rw [tidy.toSound.fate?_take he] at waiting
      exact settled (Option.some.inj waiting)
    have notIn : (i, k) ∉ t.pending := fun mem ↦
      other (congrArg (·.2) (List.inj_on_of_nodup_map tidy.ids_nodup mem he rfl))
    rw [tidy.toSound.fate?_take_other fate notIn] at waiting
    obtain ⟨id', mem⟩ := tidy.entered k waiting
    refine ⟨id', (mem_pending_take t i fate _).mpr ⟨mem, ?_⟩⟩
    rintro rfl
    exact notIn mem
  · rw [take_of_notMem hid] at waiting ⊢
    exact tidy.entered k waiting

/-- A call is registered; one that waited under its id is forgotten. -/
theorem Tidy.register (tidy : Tidy t) {u : CallTable}
    (registered : t.register id = .ok (u, ticket)) : Tidy u := by
  have opened : t.closed = false := by
    cases hclosed : t.closed with
    | false => rfl
    | true =>
      rw [register_of_closed hclosed] at registered
      cases registered
  simp only [CallTable.register, opened, Bool.false_eq_true, if_false, Except.ok.injEq,
    Prod.mk.injEq] at registered
  obtain ⟨rfl, rfl⟩ := registered
  have removed : Tidy (t.remove id).1 := tidy.take id Ticket.noConfusion
  refine ⟨removed.toSound.register ((closed_take ..).trans opened)
    (notMem_ids_take t id .forgotten), fun k waiting ↦ ?_⟩
  simp only [fate?, List.getElem?_append, List.getElem?_singleton] at waiting
  split at waiting
  · obtain ⟨id', mem⟩ := removed.entered k waiting
    exact ⟨id', List.mem_append_left _ mem⟩
  · split at waiting
    · next hlast =>
      have hk : k = (t.remove id).1.tickets.length := by omega
      exact ⟨id, by simp [hk]⟩
    · cases waiting

/-- Every call has ended. -/
theorem Tidy.failAll (tidy : Tidy t) (reason : String) : Tidy (t.failAll reason) := by
  refine ⟨.failAll t reason, fun k waiting ↦ ?_⟩
  rw [fate?_failAll] at waiting
  split at waiting
  · simp at waiting
  · next absent =>
    obtain ⟨id', mem⟩ := tidy.entered k waiting
    exact absurd (List.mem_map_of_mem (f := (·.2)) mem) absent

/-- What the operations make of a table, one after another. -/
inductive Goes (t : CallTable) : CallTable → Prop where
  | refl : Goes t t
  | registers {u v : CallTable} {id : Int} {ticket : Nat} (before : Goes t u)
      (registered : u.register id = .ok (v, ticket)) : Goes t v
  | takes {u : CallTable} (before : Goes t u) (id : Int) {fate : Ticket}
      (settled : fate ≠ .waiting) : Goes t (u.take id fate).1
  | fails {u : CallTable} (before : Goes t u) (reason : String) : Goes t (u.failAll reason)

namespace Goes

variable {u v : CallTable}

theorem trans (first : Goes t u) (second : Goes u v) : Goes t v := by
  induction second with
  | refl => exact first
  | registers _ registered ih => exact ih.registers registered
  | takes _ id settled ih => exact ih.takes id settled
  | fails _ reason ih => exact ih.fails reason

/-- No table is opened again. -/
theorem closed (goes : Goes t u) (closed : t.closed = true) : u.closed = true := by
  induction goes with
  | refl => exact closed
  | registers _ registered ih =>
    rw [register_of_closed ih] at registered
    cases registered
  | takes _ id _ ih => exact (closed_take ..).trans ih
  | fails => rfl

theorem tidy (goes : Goes t u) (tidy : Tidy t) : Tidy u := by
  induction goes with
  | refl => exact tidy
  | registers _ registered ih => exact ih.register registered
  | takes _ id settled ih => exact ih.take id settled
  | fails _ reason ih => exact ih.failAll reason

end Goes

end LanguageHub.CallTable
