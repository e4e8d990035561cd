import LanguageHub.Proofs.CallTable
import LanguageHub.Proofs.Connection.History
import Mathlib.Logic.Function.Basic

/-!
# The ledger of calls

The part of a connection that decides which call gets which answer: the table of waiting calls,
the id and the ticket of every call that goes on, and the outcomes of those that have returned.
Whatever happens, a call goes on waiting under its own id until the first response to it, and no
response is given to another call.
-/

namespace LanguageHub

/-- The outcome comes from a response of the server. -/
def Outcome.IsReply : Outcome → Prop
  | .ok _ => True
  | .error (.rpc _ _) => True
  | .error _ => False

/-- The calls of a connection. -/
structure Ledger where
  table : CallTable
  /-- The id of the next call. -/
  nextId : Int
  /-- The id and the ticket of each call that goes on. -/
  going : Nat → Option (Int × Nat)
  /-- The outcome of each call that has returned. -/
  returned : Nat → Option Outcome

namespace Ledger

open History

/-- A call goes on no longer and has returned an outcome. -/
def finish (l : Ledger) (n : Nat) (outcome : Outcome) : Ledger :=
  { l with
    going := Function.update l.going n none
    returned := Function.update l.returned n (some outcome) }

/-- What can happen to the calls of a connection, and what it shows. -/
inductive Step (l : Ledger) : History → Ledger → Prop where
  | quiet {shown : History} (silent : Silent shown) : Step l shown l
  /-- A call begins on a closed connection. -/
  | refuse (n : Nat) (request : Request) (idle : l.going n = none) (fresh : l.returned n = none) :
      Step l [.called n l.nextId request]
        { l.finish n (.error (.transport "connection closed")) with nextId := l.nextId + 1 }
  | register {table : CallTable} {ticket : Nat} {more : History} (n : Nat) (request : Request)
      (idle : l.going n = none) (fresh : l.returned n = none) (silent : Silent more)
      (opened : l.table.closed = false)
      (registered : l.table.register l.nextId = .ok (table, ticket)) :
      Step l (.called n l.nextId request :: more)
        { l with
          table
          nextId := l.nextId + 1
          going := Function.update l.going n (some (l.nextId, ticket)) }
  /-- A call returns the outcome that was delivered to it. -/
  | answer {shown : History} {n ticket : Nat} {id : Int} {outcome : Outcome} (silent : Silent shown)
      (going : l.going n = some (id, ticket))
      (fate : l.table.fate? ticket = some (.decided outcome)) : Step l shown (l.finish n outcome)
  /-- A call gives up and is forgotten. -/
  | fail {shown : History} {n ticket : Nat} {id : Int} {f : Failure} (silent : Silent shown)
      (going : l.going n = some (id, ticket)) (noReply : ¬ Outcome.IsReply (.error f)) :
      Step l shown { l.finish n (.error f) with table := (l.table.remove id).1 }
  /-- A call whose ticket is neither waiting nor decided. -/
  | lose {shown : History} {n ticket : Nat} {id : Int} {f : Failure} (silent : Silent shown)
      (going : l.going n = some (id, ticket)) (gone : l.table.fate? ticket ≠ some .waiting)
      (undecided : ∀ outcome, l.table.fate? ticket ≠ some (.decided outcome)) :
      Step l shown (l.finish n (.error f))
  | respond (id : Int) (outcome : Outcome) :
      Step l [.responded id outcome] { l with table := (l.table.resolve id outcome).1 }
  | close {shown : History} (reason : String) (silent : Silent shown) :
      Step l shown { l with table := l.table.failAll reason }

/-- What holds of the calls of a connection after what has happened. -/
structure Kept (l : Ledger) (h : History) : Prop where
  sound : l.table.Sound
  increasing : h.callIds.Pairwise (· < ·)
  below : ∀ id ∈ h.callIds, id < l.nextId
  distinct : ∀ n m id, h.idOf? n = some id → h.idOf? m = some id → n = m
  begun : ∀ n, h.idOf? n ≠ none ↔ l.going n ≠ none ∨ l.returned n ≠ none
  apart : ∀ n, l.going n ≠ none → l.returned n = none
  owned : ∀ e ∈ l.table.pending, ∃ n, l.going n = some e
  /-- A call that goes on waits for its first response, or has its outcome. -/
  going : ∀ n id ticket, l.going n = some (id, ticket) → h.idOf? n = some id ∧
    ((id, ticket) ∈ l.table.pending ∧ responseTo? n h = none ∨
      ∃ outcome, l.table.fate? ticket = some (.decided outcome) ∧
        (outcome.IsReply → ∃ p, responseTo? n h = some (p, outcome)))
  returned : ∀ n outcome, l.returned n = some outcome → outcome.IsReply →
    ∃ p, responseTo? n h = some (p, outcome)

namespace Kept

variable {l m : Ledger} {h : History} {n ticket : Nat} {id : Int} {outcome : Outcome}

/-- No call has begun. -/
theorem start (table : CallTable) (nextId : Int) (sound : table.Sound)
    (empty : table.pending = []) :
    Kept ⟨table, nextId, fun _ ↦ none, fun _ ↦ none⟩ [] where
  sound := sound
  increasing := List.Pairwise.nil
  below := by simp [callIds]
  distinct := by simp [idOf?]
  begun := by simp [idOf?]
  apart := by simp
  owned := by simp [empty]
  going := by simp
  returned := by simp

/-- A call whose ticket is decided no longer waits. -/
theorem notMem_ids (kept : l.Kept h) (going : l.going n = some (id, ticket))
    (fate : l.table.fate? ticket = some (.decided outcome)) : id ∉ l.table.ids := by
  intro hid
  obtain ⟨⟨i, k⟩, he, rfl⟩ := List.mem_map.mp hid
  obtain ⟨m, hm⟩ := kept.owned _ he
  have hnm := kept.distinct n m i (kept.going n _ _ going).1 (kept.going m _ _ hm).1
  rw [← hnm, going] at hm
  cases hm
  simp [kept.sound.waiting _ he] at fate

/-- A call to which there was a response no longer waits. -/
theorem notMem_ids_of_response (kept : l.Kept h) (called : h.idOf? n = some id)
    (response : responseTo? n h ≠ none) : id ∉ l.table.ids := by
  intro hid
  obtain ⟨⟨i, k⟩, he, rfl⟩ := List.mem_map.mp hid
  obtain ⟨m, hm⟩ := kept.owned _ he
  obtain ⟨hcalled, ⟨_, hnone⟩ | ⟨o, hfate, _⟩⟩ := kept.going m _ _ hm
  · exact response (kept.distinct n m i called hcalled ▸ hnone)
  · simp [kept.sound.waiting _ he] at hfate

/-- The ticket of a call does not wait under the id of another call. -/
theorem notMem_pending (kept : l.Kept h) (going : l.going n = some (id, ticket)) {i : Int}
    (other : id ≠ i) : (i, ticket) ∉ l.table.pending := by
  intro he
  obtain ⟨_, ⟨hmem, _⟩ | ⟨o, hfate, _⟩⟩ := kept.going n id ticket going
  · have := List.inj_on_of_nodup_map kept.sound.tickets_nodup hmem he rfl
    exact other (congrArg (·.1) this)
  · simp [kept.sound.waiting _ he] at hfate

/-- A number under which no call has begun. -/
theorem idOf?_eq_none (kept : l.Kept h) (idle : l.going n = none) (fresh : l.returned n = none) :
    h.idOf? n = none := by
  by_contra hn
  rcases (kept.begun n).mp hn with hg | hr
  · exact hg idle
  · exact hr fresh

/-- The next id is no id of the table. -/
theorem nextId_notMem_ids (kept : l.Kept h) : l.nextId ∉ l.table.ids := by
  intro hid
  obtain ⟨⟨i, k⟩, he, hi⟩ := List.mem_map.mp hid
  obtain ⟨m, hm⟩ := kept.owned _ he
  have := kept.below i (mem_callIds (kept.going m _ _ hm).1)
  exact absurd hi (by simp only; omega)

/-- Nothing changes as long as no call begins and no response comes. -/
theorem quiet {shown : History} (kept : l.Kept h) (silent : Silent shown) :
    l.Kept (h ++ shown) where
  sound := kept.sound
  increasing := by simpa [silent.callIds] using kept.increasing
  below := by simpa [silent.callIds] using kept.below
  distinct := by simpa [silent.idOf?] using kept.distinct
  begun := by simpa [silent.idOf?] using kept.begun
  apart := kept.apart
  owned := kept.owned
  going := by simpa [silent.idOf?, silent.responseTo?] using kept.going
  returned := by simpa [silent.responseTo?] using kept.returned

private theorem increasing_called (kept : l.Kept h) {more : History} (silent : Silent more)
    (n : Nat) (request : Request) :
    (callIds (h ++ .called n l.nextId request :: more)).Pairwise (· < ·) ∧
      ∀ id ∈ callIds (h ++ .called n l.nextId request :: more), id < l.nextId + 1 := by
  rw [callIds_called h silent]
  constructor
  · refine List.pairwise_append.mpr
      ⟨kept.increasing, List.pairwise_singleton .., fun i hi j hj ↦ ?_⟩
    rw [List.mem_singleton.mp hj]
    exact kept.below i hi
  · intro i hi
    rcases List.mem_append.mp hi with hi | hi
    · have := kept.below i hi
      omega
    · rw [List.mem_singleton.mp hi]
      omega

private theorem distinct_called (kept : l.Kept h) {more : History} (silent : Silent more)
    (fresh : h.idOf? n = none) (request : Request) (k m : Nat) (id : Int)
    (hk : idOf? (h ++ .called n l.nextId request :: more) k = some id)
    (hm : idOf? (h ++ .called n l.nextId request :: more) m = some id) : k = m := by
  rw [idOf?_called fresh silent] at hk hm
  split at hk
  · next hkn =>
    split at hm
    · next hmn => rw [hkn, hmn]
    · cases hk
      exact absurd (kept.below _ (mem_callIds hm)) (by omega)
  · split at hm
    · cases hm
      exact absurd (kept.below _ (mem_callIds hk)) (by omega)
    · exact kept.distinct k m id hk hm

/-- A call is refused on a closed connection. -/
theorem refuse (kept : l.Kept h) (idle : l.going n = none) (fresh : l.returned n = none)
    (request : Request) :
    Kept { l.finish n (.error (.transport "connection closed")) with nextId := l.nextId + 1 }
      (h ++ [.called n l.nextId request]) := by
  have hnone := kept.idOf?_eq_none idle fresh
  have silent : Silent [] := by simp [Silent]
  obtain ⟨increasing, below⟩ := kept.increasing_called silent n request
  have hgoing : ∀ m, Function.update l.going n none m = l.going m := by
    intro m
    rw [← idle, Function.update_eq_self]
  refine ⟨kept.sound, increasing, below, kept.distinct_called silent hnone request, fun m ↦ ?_,
    fun m hm ↦ ?_, fun e he ↦ ?_, fun m id ticket hm ↦ ?_, fun m outcome hm reply ↦ ?_⟩
  · rw [idOf?_called hnone silent]
    simp only [finish, hgoing]
    by_cases hmn : m = n
    · simp [hmn]
    · simpa [hmn] using kept.begun m
  · simp only [finish, hgoing] at hm ⊢
    have hmn : m ≠ n := fun hmn ↦ hm (by rw [hmn, idle])
    rw [Function.update_of_ne hmn]
    exact kept.apart m hm
  · simp only [finish, hgoing]
    exact kept.owned e he
  · simp only [finish, hgoing] at hm
    have hmn : m ≠ n := fun hmn ↦ by simp [hmn, idle] at hm
    rw [idOf?_called hnone silent, if_neg hmn, responseTo?_called silent]
    exact kept.going m id ticket hm
  · rw [responseTo?_called silent]
    by_cases hmn : m = n
    · subst hmn
      simp only [finish, Function.update_self, Option.some.injEq] at hm
      subst hm
      exact reply.elim
    · simp only [finish, Function.update_of_ne hmn] at hm
      exact kept.returned m outcome hm reply

/-- A call is registered and waits. -/
theorem register {table : CallTable} {more : History} (kept : l.Kept h)
    (idle : l.going n = none) (fresh : l.returned n = none) (silent : Silent more)
    (opened : l.table.closed = false)
    (registered : l.table.register l.nextId = .ok (table, ticket)) (request : Request) :
    Kept { l with
      table
      nextId := l.nextId + 1
      going := Function.update l.going n (some (l.nextId, ticket)) }
      (h ++ .called n l.nextId request :: more) := by
  have hnone := kept.idOf?_eq_none idle fresh
  obtain ⟨increasing, below⟩ := kept.increasing_called silent n request
  rw [CallTable.register_of_fresh opened kept.nextId_notMem_ids] at registered
  cases registered
  refine ⟨kept.sound.register opened kept.nextId_notMem_ids, increasing, below,
    kept.distinct_called silent hnone request, fun m ↦ ?_, fun m hm ↦ ?_, fun e he ↦ ?_,
    fun m id ticket hm ↦ ?_, fun m outcome hm reply ↦ ?_⟩
  · rw [idOf?_called hnone silent]
    by_cases hmn : m = n
    · simp [hmn]
    · simpa [hmn] using kept.begun m
  · by_cases hmn : m = n
    · rw [hmn]
      exact fresh
    · simp only [Function.update_of_ne hmn] at hm
      exact kept.apart m hm
  · rcases List.mem_append.mp he with he | he
    · obtain ⟨m, hm⟩ := kept.owned e he
      have hmn : m ≠ n := fun hmn ↦ by simp [hmn, idle] at hm
      exact ⟨m, by simpa only [Function.update_of_ne hmn] using hm⟩
    · exact ⟨n, by simp only [Function.update_self, List.mem_singleton.mp he]⟩
  · rw [idOf?_called hnone silent, responseTo?_called silent]
    by_cases hmn : m = n
    · subst hmn
      simp only [Function.update_self, Option.some.injEq, Prod.mk.injEq] at hm
      obtain ⟨rfl, rfl⟩ := hm
      exact ⟨if_pos rfl, .inl ⟨by simp, responseTo?_eq_none hnone⟩⟩
    · simp only [Function.update_of_ne hmn] at hm
      obtain ⟨hcalled, hstage⟩ := kept.going m id ticket hm
      refine ⟨(if_neg hmn).trans hcalled, hstage.imp ?_ ?_⟩
      · exact fun ⟨hmem, hresponse⟩ ↦ ⟨List.mem_append_left _ hmem, hresponse⟩
      · exact fun ⟨o, hfate, hreply⟩ ↦ ⟨o, CallTable.fate?_append hfate _ _, hreply⟩
  · rw [responseTo?_called silent]
    exact kept.returned m outcome hm reply

private theorem going_finish {k : Nat} {e : Int × Nat}
    (hk : Function.update l.going n none k = some e) : k ≠ n ∧ l.going k = some e := by
  by_cases hkn : k = n
  · rw [hkn, Function.update_self] at hk
    cases hk
  · rw [Function.update_of_ne hkn] at hk
    exact ⟨hkn, hk⟩

/-- A call returns an outcome that is its first response, or no response at all, and its id waits
no longer. -/
theorem finish {table : CallTable} (kept : l.Kept h) (going : l.going n = some (id, ticket))
    (sound : table.Sound)
    (pending : ∀ e, e ∈ table.pending ↔ e ∈ l.table.pending ∧ e.1 ≠ id)
    (decided : ∀ k o, l.table.fate? k = some (.decided o) → table.fate? k = some (.decided o))
    (reply : outcome.IsReply → ∃ p, responseTo? n h = some (p, outcome)) :
    Kept { l.finish n outcome with table } h where
  sound := sound
  increasing := kept.increasing
  below := kept.below
  distinct := kept.distinct
  begun := by
    intro m
    by_cases hmn : m = n
    · subst hmn
      simp [Ledger.finish, (kept.going m id ticket going).1]
    · simpa [Ledger.finish, hmn] using kept.begun m
  apart := by
    intro m hm
    obtain ⟨e, he⟩ := Option.ne_none_iff_exists'.mp hm
    obtain ⟨hmn, he⟩ := going_finish he
    simpa [Ledger.finish, hmn] using kept.apart m (by simp [he])
  owned := by
    intro e he
    obtain ⟨he, hne⟩ := (pending e).mp he
    obtain ⟨m, hm⟩ := kept.owned e he
    have hmn : m ≠ n := by
      intro hmn
      rw [hmn, going] at hm
      cases hm
      exact hne rfl
    exact ⟨m, by simpa [Ledger.finish, hmn] using hm⟩
  going := by
    intro m i k hm
    obtain ⟨hmn, hm⟩ := going_finish hm
    obtain ⟨hcalled, hstage⟩ := kept.going m i k hm
    refine ⟨hcalled, hstage.imp ?_ ?_⟩
    · refine fun ⟨hmem, hresponse⟩ ↦ ⟨(pending _).mpr ⟨hmem, fun hi ↦ hmn ?_⟩, hresponse⟩
      exact kept.distinct m n id (hi ▸ hcalled) (kept.going n id ticket going).1
    · exact fun ⟨o, hfate, hreply⟩ ↦ ⟨o, decided k o hfate, hreply⟩
  returned := by
    intro m o hm hreply
    by_cases hmn : m = n
    · subst hmn
      simp only [Ledger.finish, Function.update_self, Option.some.injEq] at hm
      exact hm ▸ reply (hm ▸ hreply)
    · simp only [Ledger.finish, Function.update_of_ne hmn] at hm
      exact kept.returned m o hm hreply

/-- A response is decoded. -/
theorem respond (kept : l.Kept h) (id : Int) (outcome : Outcome) :
    Kept { l with table := (l.table.resolve id outcome).1 } (h ++ [.responded id outcome]) := by
  have hidOf : ∀ m, idOf? (h ++ [.responded id outcome]) m = h.idOf? m := fun m ↦ by
    simp [idOf?, Occurrence.idOf?]
  have hcallIds : callIds (h ++ [.responded id outcome]) = h.callIds := by
    simp [callIds, Occurrence.callId?, List.filterMap_cons]
  have hlater : ∀ m i, h.idOf? m = some i → i ≠ id →
      responseTo? m (h ++ [.responded id outcome]) = responseTo? m h := by
    intro m i called hi
    rw [responseTo?_append called]
    simp [firstResponse?, Occurrence.responseTo?, Ne.symm hi]
  refine ⟨kept.sound.take id _, hcallIds ▸ kept.increasing, hcallIds ▸ kept.below, fun m k i ↦ ?_,
    fun m ↦ ?_, kept.apart, fun e he ↦ ?_, fun m i k hm ↦ ?_, fun m o hm hreply ↦ ?_⟩
  · rw [hidOf, hidOf]
    exact kept.distinct m k i
  · rw [hidOf]
    exact kept.begun m
  · exact kept.owned e ((CallTable.mem_pending_take _ _ _ _).mp he).1
  · obtain ⟨hcalled, ⟨hmem, hnone⟩ | ⟨o, hfate, hreply⟩⟩ := kept.going m i k hm
    · refine ⟨(hidOf m).trans hcalled, ?_⟩
      by_cases hi : i = id
      · subst hi
        refine .inr ⟨outcome, kept.sound.fate?_take hmem _, fun _ ↦ ⟨h.length, ?_⟩⟩
        rw [responseTo?_append hcalled, hnone]
        simp [firstResponse?, Occurrence.responseTo?, later]
      · exact .inl ⟨(CallTable.mem_pending_take _ _ _ _).mpr ⟨hmem, hi⟩,
          (hlater m i hcalled hi).trans hnone⟩
    · refine ⟨(hidOf m).trans hcalled, .inr ⟨o, kept.sound.decided_take _ hfate, fun hr ↦ ?_⟩⟩
      obtain ⟨p, hp⟩ := hreply hr
      exact ⟨p, responseTo?_append_of_some hp _⟩
  · obtain ⟨p, hp⟩ := kept.returned m o hm hreply
    exact ⟨p, responseTo?_append_of_some hp _⟩

/-- Every call that waits fails. -/
theorem close (kept : l.Kept h) (reason : String) :
    Kept { l with table := l.table.failAll reason } h where
  sound := .failAll _ _
  increasing := kept.increasing
  below := kept.below
  distinct := kept.distinct
  begun := kept.begun
  apart := kept.apart
  owned := by simp
  going := by
    intro m i k hm
    obtain ⟨hcalled, ⟨hmem, _⟩ | ⟨o, hfate, hreply⟩⟩ := kept.going m i k hm
    · exact ⟨hcalled, .inr ⟨_, kept.sound.fate?_failAll hmem reason, False.elim⟩⟩
    · exact ⟨hcalled, .inr ⟨o, kept.sound.decided_failAll reason hfate, hreply⟩⟩
  returned := kept.returned

/-- Whatever happens, the calls are kept. -/
theorem step {shown : History} (kept : l.Kept h) (next : l.Step shown m) : m.Kept (h ++ shown) := by
  cases next with
  | quiet silent => exact kept.quiet silent
  | refuse n request idle fresh => exact kept.refuse idle fresh request
  | register n request idle fresh silent opened registered =>
    exact kept.register idle fresh silent opened registered request
  | @answer _ n ticket i outcome silent going fate =>
    refine Kept.quiet ?_ silent
    obtain ⟨_, ⟨hmem, _⟩ | ⟨o, hfate, hreply⟩⟩ := kept.going n i ticket going
    · simp [kept.sound.waiting _ hmem] at fate
    · rw [fate] at hfate
      cases hfate
      refine kept.finish going kept.sound (fun e ↦ ⟨fun he ↦ ⟨he, fun hid ↦ ?_⟩, And.left⟩)
        (fun _ _ ↦ id) hreply
      exact kept.notMem_ids going fate (hid ▸ List.mem_map_of_mem (f := (·.1)) he)
  | @fail _ n ticket id f silent going noReply =>
    refine Kept.quiet ?_ silent
    exact kept.finish going (kept.sound.take id _) (CallTable.mem_pending_take _ _ _)
      (fun _ _ ↦ kept.sound.decided_take _) fun reply ↦ absurd reply noReply
  | @lose _ n ticket id f _ going gone undecided =>
    obtain ⟨_, ⟨hmem, _⟩ | ⟨o, hfate, _⟩⟩ := kept.going n id ticket going
    · exact absurd (kept.sound.waiting _ hmem) gone
    · exact absurd hfate (undecided o)
  | respond id outcome => exact kept.respond id outcome
  | close reason silent => exact (kept.close reason).quiet silent

end Kept

end Ledger

end LanguageHub
