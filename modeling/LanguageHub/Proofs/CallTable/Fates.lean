import LanguageHub.Message.Incoming
import LanguageHub.Proofs.CallTable
import Mathlib.Data.List.Induction

/-!
# What becomes of every ticket

A table of calls that is used from its beginning, in any order and with any ids. What becomes of
a ticket follows from the record of the uses alone: it is what the first use makes of it that
concerns its id, among those that come after its registration (`first_entry_decides`).
-/

namespace LanguageHub.CallTable

/-! ### Uses and their record -/

/-- A use of a table. -/
inductive Use where
  | register (id : Int)
  /-- The server has answered the call with this id. -/
  | resolve (id : Int) (answer : Except RpcError Json)
  | remove (id : Int)
  | failAll (reason : String)
  /-- The holder of a ticket lets it go. The table does not know its holders. -/
  | letGo (ticket : Nat)

/-- What a use is answered with. -/
inductive Reply where
  | ticket (number : Nat)
  | refused (failure : Failure)
  /-- Whether a call waited under the id. -/
  | found (waited : Bool)
  | done

/-- Use a table. -/
def use (t : CallTable) : Use → CallTable × Reply
  | .register id =>
    match t.register id with
    | .ok (u, number) => (u, .ticket number)
    | .error f => (t, .refused f)
  | .resolve id answer =>
    let (u, waited) := t.resolve id (answer.mapError RpcError.toFailure)
    (u, .found waited)
  | .remove id =>
    let (u, waited) := t.remove id
    (u, .found waited)
  | .failAll reason => (t.failAll reason, .done)
  | .letGo _ => (t, .done)

/-- A use with its reply. -/
abbrev Entry := Use × Reply

/-- Use a new table several times, and record it. -/
def perform (uses : List Use) : List Entry × CallTable :=
  uses.foldl (fun (record, t) u ↦ (record ++ [(u, (t.use u).2)], (t.use u).1)) ([], {})

theorem perform_concat (uses : List Use) (u : Use) :
    perform (uses ++ [u]) =
      ((perform uses).1 ++ [(u, ((perform uses).2.use u).2)], ((perform uses).2.use u).1) := by
  rw [perform, List.foldl_concat]
  rfl

/-! ### Fates by the record -/

/-- What an entry makes of a ticket that waits under an id, if it concerns it: an answer, a removal
and another registration concern their own id, and the end of all calls concerns every id. -/
def Entry.decides (id : Int) : Entry → Option Ticket
  | (.resolve own answer, _) =>
    if own = id then some (.decided (answer.mapError RpcError.toFailure)) else none
  | (.remove own, _) => if own = id then some .forgotten else none
  | (.register own, .ticket _) => if own = id then some .forgotten else none
  | (.failAll reason, _) => some (.decided (.error (.transport reason)))
  | (.register _, _) | (.letGo _, _) => none

/-- A ticket by the record: the id it was given for, and what was recorded after it. -/
structure Holding where
  id : Int
  later : List Entry

namespace Holding

/-- What the first entry that concerns a ticket makes of it. -/
def decision? (x : Holding) : Option Ticket := x.later.findSome? (Entry.decides x.id)

/-- Whether no entry has concerned the ticket. -/
def isOpen (x : Holding) : Bool := x.decision?.isNone

/-- What has become of the ticket. -/
def fate (x : Holding) : Ticket := x.decision?.getD .waiting

/-- One more entry is recorded. -/
def add (x : Holding) (e : Entry) : Holding := { x with later := x.later ++ [e] }

/-- What was decided stays; else the next entry may decide. -/
theorem decision?_add (x : Holding) (e : Entry) :
    (x.add e).decision? = x.decision?.or (e.decides x.id) := by
  simp only [decision?, add, List.findSome?_append, List.findSome?_singleton]

theorem isOpen_add (x : Holding) (e : Entry) :
    (x.add e).isOpen = (x.isOpen && (e.decides x.id).isNone) := by
  simp only [isOpen, decision?_add, Option.isNone_or]

/-- What has become of a ticket after one more entry. -/
theorem fate_add (x : Holding) (e : Entry) :
    (x.add e).fate = if x.isOpen then (e.decides x.id).getD .waiting else x.fate := by
  rw [fate, decision?_add, fate, isOpen]
  cases x.decision? <;> rfl

end Holding

/-- The tickets that were given out, in order. -/
def holdings : List Entry → List Holding
  | [] => []
  | (.register id, .ticket _) :: later => ⟨id, later⟩ :: holdings later
  | _ :: later => holdings later

/-- The ticket that an entry gives out. -/
def Entry.holding? : Entry → Option Holding
  | (.register id, .ticket _) => some ⟨id, []⟩
  | _ => none

/-- Each ticket has one more entry behind it, and the entry may give out another one. -/
theorem holdings_concat (record : List Entry) (e : Entry) :
    holdings (record ++ [e]) = (holdings record).map (·.add e) ++ e.holding?.toList := by
  induction record with
  | nil =>
    obtain ⟨u, reply⟩ := e
    cases u <;> cases reply <;> rfl
  | cons x record ih =>
    obtain ⟨u, reply⟩ := x
    cases u with
    | register id =>
      cases reply with
      | ticket => exact congrArg (Holding.add ⟨id, record⟩ e :: ·) ih
      | refused | found | done => exact ih
    | resolve | remove | failAll | letGo => exact ih

/-- A registration that was recorded gave out the ticket with the next number. -/
theorem holdings_append_cons (before : List Entry) (id : Int) (number : Nat) (later : List Entry) :
    (holdings (before ++ (.register id, .ticket number) :: later))[(holdings before).length]? =
      some ⟨id, later⟩ := by
  induction before with
  | nil => rfl
  | cons x before ih =>
    obtain ⟨u, reply⟩ := x
    cases u with
    | register own =>
      cases reply with
      | ticket => simpa [holdings] using ih
      | refused | found | done => exact ih
    | resolve | remove | failAll | letGo => exact ih

/-! ### What a use makes of a table -/

variable {t u : CallTable} {id : Int}

/-- The waiting calls are decided as is said for their ids, and nothing else changes. -/
structure Decides (t : CallTable) (decide : Int → Option Ticket) (u : CallTable) : Prop where
  length : u.tickets.length = t.tickets.length
  pending : ∀ e, e ∈ u.pending ↔ e ∈ t.pending ∧ decide e.1 = none
  decided : ∀ e ∈ t.pending, u.fate? e.2 = some ((decide e.1).getD .waiting)
  others : ∀ k, (∀ e ∈ t.pending, e.2 ≠ k) → u.fate? k = t.fate? k

/-- Nothing happens. -/
theorem Sound.decides_none (sound : t.Sound) : t.Decides (fun _ ↦ none) t where
  length := rfl
  pending e := by simp
  decided e he := sound.waiting e he
  others k _ := rfl

theorem length_settle (t : CallTable) (ticket : Nat) (fate : Ticket) :
    (t.settle ticket fate).tickets.length = t.tickets.length := List.length_set

/-- The call under an id is taken out. -/
theorem Sound.decides_take (sound : t.Sound) (id : Int) (fate : Ticket) :
    t.Decides (fun own ↦ if id = own then some fate else none) (t.take id fate).1 where
  length := by
    simp only [CallTable.take]
    split
    · rfl
    · exact length_settle ..
  pending e := by simp [mem_pending_take, eq_comm]
  decided e he := by
    by_cases own : id = e.1
    · rw [if_pos own, Option.getD_some, own]
      exact sound.fate?_take he fate
    · rw [if_neg own, Option.getD_none, sound.fate?_take_other fate, sound.waiting e he]
      intro mem
      exact own (congrArg (·.1) (List.inj_on_of_nodup_map sound.tickets_nodup mem he rfl))
  others k absent := sound.fate?_take_other fate fun mem ↦ absent _ mem rfl

private theorem length_foldl_settle (fate : Ticket) (l : List (Int × Nat)) (t : CallTable) :
    (l.foldl (fun t e ↦ t.settle e.2 fate) t).tickets.length = t.tickets.length := by
  induction l generalizing t with
  | nil => rfl
  | cons e l ih => exact (ih _).trans (length_settle ..)

/-- Every call fails. -/
theorem Sound.decides_failAll (sound : t.Sound) (reason : String) :
    t.Decides (fun _ ↦ some (.decided (.error (.transport reason)))) (t.failAll reason) where
  length := length_foldl_settle _ t.pending t
  pending e := by simp
  decided e he := sound.fate?_failAll he reason
  others k absent := by
    rw [CallTable.fate?_failAll, if_neg]
    intro mem
    obtain ⟨e, he, same⟩ := List.mem_map.mp mem
    exact absent e he same

/-! ### Tables and records -/

/-- The table is as the tickets that were given out say. -/
structure Shows (t : CallTable) (holdings : List Holding) : Prop where
  tickets : t.tickets = holdings.map Holding.fate
  pending : ∀ e, e ∈ t.pending ↔ ∃ x, holdings[e.2]? = some x ∧ x.id = e.1 ∧ x.isOpen = true

namespace Shows

variable {holdings : List Holding}

theorem fate? (shows : t.Shows holdings) (k : Nat) :
    t.fate? k = holdings[k]?.map Holding.fate := by
  rw [CallTable.fate?, shows.tickets, List.getElem?_map]

/-- One more entry is recorded, and what it decides is decided. -/
theorem decides (shows : t.Shows holdings) {e : Entry} (decides : t.Decides e.decides u) :
    u.Shows (holdings.map (·.add e)) where
  tickets := by
    refine List.ext_getElem? fun k ↦ ?_
    change u.fate? k = _
    rw [List.getElem?_map, List.getElem?_map]
    cases holding : holdings[k]? with
    | none =>
      have beyond : t.fate? k = none := by rw [shows.fate?, holding, Option.map_none]
      rw [Option.map_none, Option.map_none]
      rw [CallTable.fate?, List.getElem?_eq_none_iff] at beyond ⊢
      rw [decides.length]
      exact beyond
    | some x =>
      rw [Option.map_some, Option.map_some, x.fate_add]
      split
      · next isOpen =>
        exact decides.decided (x.id, k) ((shows.pending _).mpr ⟨x, holding, rfl, isOpen⟩)
      · next decided =>
        rw [decides.others, shows.fate?, holding, Option.map_some]
        rintro e he rfl
        obtain ⟨y, hy, -, isOpen⟩ := (shows.pending e).mp he
        rw [holding] at hy
        cases hy
        exact decided isOpen
  pending p := by
    rw [decides.pending, shows.pending]
    simp only [List.getElem?_map, Option.map_eq_some_iff]
    constructor
    · rintro ⟨⟨x, hx, own, isOpen⟩, untouched⟩
      exact ⟨x.add e, ⟨x, hx, rfl⟩, own, by simp [x.isOpen_add, isOpen, own, untouched]⟩
    · rintro ⟨_, ⟨x, hx, rfl⟩, own, isOpen⟩
      have own : x.id = p.1 := own
      rw [x.isOpen_add, Bool.and_eq_true, Option.isNone_iff_eq_none, own] at isOpen
      exact ⟨⟨x, hx, own, isOpen.1⟩, isOpen.2⟩

/-- Another ticket is given out. -/
theorem register (shows : t.Shows holdings) (id : Int) :
    Shows { t with
      pending := t.pending ++ [(id, t.tickets.length)]
      tickets := t.tickets ++ [.waiting] } (holdings ++ [⟨id, []⟩]) where
  tickets := by
    rw [List.map_append, ← shows.tickets]
    rfl
  pending p := by
    have length : t.tickets.length = holdings.length := by rw [shows.tickets, List.length_map]
    rw [List.mem_append, List.mem_singleton, shows.pending, length]
    constructor
    · rintro (⟨x, hx, own, isOpen⟩ | rfl)
      · obtain ⟨below, -⟩ := List.getElem?_eq_some_iff.mp hx
        exact ⟨x, (List.getElem?_append_left below).trans hx, own, isOpen⟩
      · exact ⟨⟨id, []⟩, by simp, rfl, rfl⟩
    · rintro ⟨x, hx, own, isOpen⟩
      rcases Nat.lt_trichotomy p.2 holdings.length with below | last | beyond
      · rw [List.getElem?_append_left below] at hx
        exact .inl ⟨x, hx, own, isOpen⟩
      · rw [last, List.getElem?_concat_length] at hx
        cases hx
        exact .inr (Prod.ext own.symm last)
      · rw [List.getElem?_eq_none (by rw [List.length_append]; exact beyond)] at hx
        cases hx

/-- As many calls wait as there are tickets that nothing has concerned. -/
theorem size_eq (shows : t.Shows holdings) (sound : t.Sound) :
    t.size = holdings.countP (·.isOpen) := by
  have numbered : (holdings.zipIdx.map (·.2)).Nodup := by
    rw [List.zipIdx_map_snd]
    exact List.nodup_range'
  have same : (t.pending.map (·.2)).Perm ((holdings.zipIdx.filter (·.1.isOpen)).map (·.2)) := by
    refine (List.perm_ext_iff_of_nodup sound.tickets_nodup
      (numbered.sublist (List.filter_sublist.map _))).mpr fun k ↦ ?_
    simp only [List.mem_map, List.mem_filter, List.mem_zipIdx_iff_getElem?, Prod.exists,
      exists_eq_right, shows.pending]
    exact ⟨fun ⟨_, x, hx, _, isOpen⟩ ↦ ⟨x, hx, isOpen⟩,
      fun ⟨x, hx, isOpen⟩ ↦ ⟨_, x, hx, rfl, isOpen⟩⟩
  have counted : (holdings.zipIdx.filter (·.1.isOpen)).length = holdings.countP (·.isOpen) := by
    rw [← List.countP_eq_length_filter, ← List.zipIdx_map_fst 0 holdings, List.countP_map,
      List.zipIdx_map_fst]
    rfl
  rw [size, ← List.length_map (f := (·.2)), same.length_eq, List.length_map, counted]

end Shows

/-! ### Runs -/

/-- Whether an entry records the end of all calls. -/
def Entry.ends : Entry → Bool
  | (.failAll _, _) => true
  | _ => false

/-- A use is answered as the entries before it say: a registration gives out the next ticket as long
as the calls have not ended, and an answer or a removal finds a call if it decides a ticket. -/
def Entry.Replied (before : List Entry) : Entry → Prop
  | (.register _, reply) =>
    reply = if before.any Entry.ends then .refused (.transport "connection closed")
      else .ticket (holdings before).length
  | (.failAll _, reply) | (.letGo _, reply) => reply = .done
  | e => ∃ waited, e.2 = .found waited ∧
      (waited = true ↔ ∃ x ∈ holdings before, x.isOpen = true ∧ (e.decides x.id).isSome = true)

/-- What holds of a table and the record of its uses. -/
structure Recorded (record : List Entry) (t : CallTable) : Prop where
  tidy : t.Tidy
  shows : t.Shows (holdings record)
  closed : t.closed = record.any Entry.ends
  replied : ∀ before e later, record = before ++ e :: later → e.Replied before

theorem register_eq_of_open (h : t.closed = false) (id : Int) :
    t.register id = .ok ({ (t.remove id).1 with
      pending := (t.remove id).1.pending ++ [(id, (t.remove id).1.tickets.length)]
      tickets := (t.remove id).1.tickets ++ [.waiting] }, (t.remove id).1.tickets.length) := by
  simp only [CallTable.register, h, Bool.false_eq_true, if_false]

/-- A call is found under an id if a ticket for it waits. -/
theorem Shows.take_found {holdings : List Holding} (shows : t.Shows holdings) (id : Int)
    (fate : Ticket) : (t.take id fate).2 = true ↔ ∃ x ∈ holdings, x.isOpen = true ∧ id = x.id := by
  have found : (t.take id fate).2 = true ↔ id ∈ t.ids := by
    simp only [CallTable.take]
    split
    · next absent => simpa using waiting?_eq_none_iff.mp absent
    · next ticket waits => simpa using mem_ids_of_mem (mem_of_waiting? waits)
  rw [found, ids, List.mem_map]
  constructor
  · rintro ⟨e, he, rfl⟩
    obtain ⟨x, hx, own, isOpen⟩ := (shows.pending e).mp he
    exact ⟨x, List.mem_of_getElem? hx, isOpen, own.symm⟩
  · rintro ⟨x, hx, isOpen, rfl⟩
    obtain ⟨k, hk⟩ := List.getElem?_of_mem hx
    exact ⟨(x.id, k), (shows.pending _).mpr ⟨x, hk, rfl, isOpen⟩, rfl⟩

namespace Recorded

variable {record : List Entry}

theorem new : Recorded [] {} where
  tidy := .empty
  shows := ⟨rfl, by simp [holdings]⟩
  closed := rfl
  replied before e later h := by simp at h

private theorem replied_concat (recorded : Recorded record t) {e : Entry}
    (replied : e.Replied record) (before : List Entry) (x : Entry) (later : List Entry)
    (split : record ++ [e] = before ++ x :: later) : x.Replied before := by
  obtain rfl | ⟨others, last, rfl⟩ := later.eq_nil_or_concat
  · obtain ⟨rfl, same⟩ := List.append_inj' split rfl
    cases same
    exact replied
  · rw [List.concat_eq_append, ← List.cons_append, ← List.append_assoc] at split
    exact recorded.replied before x others (List.append_inj' split rfl).1

/-- An entry that gives out no ticket is recorded. -/
private theorem add (recorded : Recorded record t) {e : Entry} (tidy : u.Tidy)
    (gives : e.holding? = none) (decides : t.Decides e.decides u)
    (closed : u.closed = (t.closed || e.ends)) (replied : e.Replied record) :
    Recorded (record ++ [e]) u where
  tidy := tidy
  shows := by
    rw [holdings_concat, gives, Option.toList_none, List.append_nil]
    exact recorded.shows.decides decides
  closed := by simp [closed, recorded.closed]
  replied := recorded.replied_concat replied

/-- Another use is recorded. -/
theorem use (recorded : Recorded record t) (u : Use) :
    Recorded (record ++ [(u, (t.use u).2)]) (t.use u).1 := by
  have sound := recorded.tidy.toSound
  -- A call is taken out by an answer, by a removal and by another registration.
  have found (id : Int) (fate : Ticket) : (t.take id fate).2 = true ↔
      ∃ x ∈ holdings record, x.isOpen = true ∧
        (if id = x.id then some fate else none).isSome = true := by
    simpa using recorded.shows.take_found id fate
  cases u with
  | resolve id answer =>
    exact recorded.add (recorded.tidy.take id Ticket.noConfusion) rfl (sound.decides_take id _)
      (by simp [CallTable.use, resolve, Entry.ends]) ⟨_, rfl, found id _⟩
  | remove id =>
    exact recorded.add (recorded.tidy.take id Ticket.noConfusion) rfl (sound.decides_take id _)
      (by simp [CallTable.use, remove, Entry.ends]) ⟨_, rfl, found id _⟩
  | failAll reason =>
    exact recorded.add (recorded.tidy.failAll reason) rfl (sound.decides_failAll reason)
      (by simp [CallTable.use, CallTable.failAll, Entry.ends]) rfl
  | letGo ticket =>
    exact recorded.add recorded.tidy rfl sound.decides_none
      (by simp [CallTable.use, Entry.ends]) rfl
  | register id =>
    cases closed : t.closed with
    | true =>
      have refused : t.use (.register id) = (t, .refused (.transport "connection closed")) := by
        simp only [CallTable.use, register_of_closed closed]
      rw [refused]
      exact recorded.add recorded.tidy rfl sound.decides_none (by simp [Entry.ends])
        (by rw [Entry.Replied, ← recorded.closed, closed, if_pos rfl])
    | false =>
      have registered := register_eq_of_open closed id
      have given : t.use (.register id) = ({ (t.remove id).1 with
          pending := (t.remove id).1.pending ++ [(id, (t.remove id).1.tickets.length)]
          tickets := (t.remove id).1.tickets ++ [.waiting] },
          .ticket (t.remove id).1.tickets.length) := by
        simp only [CallTable.use, registered]
      have removes := sound.decides_take id .forgotten
      have number : (t.remove id).1.tickets.length = (holdings record).length := by
        rw [remove, removes.length, recorded.shows.tickets, List.length_map]
      rw [given]
      refine ⟨recorded.tidy.register registered, ?_, ?_, recorded.replied_concat ?_⟩
      · rw [holdings_concat]
        exact (recorded.shows.decides (e := (.register id, .ticket _)) removes).register id
      · simp [Entry.ends, ← recorded.closed, remove]
      · rw [Entry.Replied, ← recorded.closed, closed, if_neg Bool.false_ne_true, number]

end Recorded

/-- Whatever uses a new table was put to are recorded. -/
theorem recorded_perform (uses : List Use) : Recorded (perform uses).1 (perform uses).2 := by
  induction uses using List.reverseRecOn with
  | nil => exact .new
  | append_singleton uses u ih =>
    rw [perform_concat]
    exact ih.use u

/-- Every use is recorded, in order. -/
theorem map_fst_perform (uses : List Use) : (perform uses).1.map (·.1) = uses := by
  induction uses using List.reverseRecOn with
  | nil => rfl
  | append_singleton uses u ih => rw [perform_concat, List.map_append, ih, List.map_singleton]

/-- A new table is used in any way. What has become of each ticket is what the first of the later
entries that concern its id makes of it: an answer under the id, its removal, another registration
that was not refused, or the end of all calls. As many calls wait as there are tickets that no later
entry concerns. An answer or a removal finds a call exactly if it decides such a ticket. After the
end of all calls the table is closed and empty, and every registration is refused. -/
theorem first_entry_decides (uses : List Use) :
    (perform uses).1.map (·.1) = uses ∧
    (∀ before id number later,
      (perform uses).1 = before ++ (.register id, .ticket number) :: later →
      (perform uses).2.fate? number =
        some ((later.findSome? (Entry.decides id)).getD .waiting)) ∧
    (perform uses).2.size = (holdings (perform uses).1).countP (·.isOpen) ∧
    (∀ before e later, (perform uses).1 = before ++ e :: later → e.Replied before) ∧
    (perform uses).2.closed = (perform uses).1.any Entry.ends ∧
    ((perform uses).2.closed = true → (perform uses).2.pending = []) := by
  have recorded := recorded_perform uses
  refine ⟨map_fst_perform uses, fun before id number later split ↦ ?_,
    recorded.shows.size_eq recorded.tidy.toSound, recorded.replied, recorded.closed,
    recorded.tidy.closed⟩
  have replied := recorded.replied before _ later split
  rw [Entry.Replied] at replied
  split at replied
  · cases replied
  · cases replied
    rw [recorded.shows.fate?, split, holdings_append_cons]
    rfl

/-- The first of two calls under one id is forgotten, and the answer goes to the second. -/
example : (perform [.register 1, .register 1, .letGo 1, .resolve 1 (.ok .null), .remove 1,
    .failAll "gone", .register 2]).2.tickets = [.forgotten, .decided (.ok .null)] := rfl

end LanguageHub.CallTable
