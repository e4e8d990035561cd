import LanguageHub.Proofs.Manager.Ways
import Mathlib.Logic.Function.Basic

/-!
# The roster of a manager

What the tasks of a manager are about to the others: who has the gate of a language, whose client
begins, and which clients are being stopped. `Manager.Kept` says how the registry, the gates and the
clients agree with it, and every change of a task and of the manager keeps it.
-/

namespace LanguageHub

open Client

/-- What matters of a task to the others. -/
inductive Role where
  | idle
  | queued (language : String)
  | evicting (language : String) (hasGate : Bool) (client : Nat)
  /-- It has the gate, and there is no registered client. -/
  | admitted (language : String)
  | connecting (language : String) (client : Nat)
  /-- It displaces a client, or it starts one that is not to be registered. -/
  | misplaced
  /-- It shuts down a client, if it is at one, and then those of the list. -/
  | stopping (client : Option Nat) (others : List Nat)

namespace Role

/-- The language whose clients nobody else may start. -/
def inside? : Role → Option String
  | evicting language true _ | admitted language | connecting language _ => some language
  | _ => none

/-- The client that is being shut down. -/
def stopped? : Role → Option Nat
  | evicting _ _ i => some i
  | stopping i? _ => i?
  | _ => none

/-- The clients that are to be shut down later. -/
def later : Role → List Nat
  | stopping _ others => others
  | _ => []

/-- Whether a client is shut down, now or later. -/
def Stops (r : Role) (i : Nat) : Prop := r.stopped? = some i ∨ i ∈ r.later

/-- Whether a client of the language is being started or shut down. -/
def Watches (r : Role) (language : String) (i : Nat) : Prop :=
  r = .connecting language i ∨ r.Stops i

end Role

/-- What a way to the client of a language is about. -/
def Obtaining.role (language : String) : Obtaining → Role
  | evicting hasGate i _ => .evicting language hasGate i
  | queued => .queued language
  | connecting i _ => .connecting language i
  | displacing .. => .misplaced

/-- What a way has come to is about. -/
def Obtaining.roleOf (language : String) : Progress Obtaining Outcome → Role
  | .running o => o.role language
  | .finished _ => .idle

namespace Manager

/-- How a manager agrees with what its tasks are about. -/
structure Kept (m : Manager) (roles : Nat → Role) : Prop where
  held : ∀ n L, (roles n).inside? = some L → (m.gate L).isHeldBy (.operation n) = true
  unregistered : ∀ n L, (roles n).inside? = some L → m.registry.get? L = none
  inPlace : ∀ n, roles n ≠ .misplaced
  registered : ∀ L i, m.registry.get? L = some i → ∃ c, m.client? i = some c ∧ c.language = L
  connecting : ∀ n L i, roles n = .connecting L i → ∃ c, m.client? i = some c ∧ c.language = L
  /-- Every process that runs is that of a registered client, of one that begins, or of one that
  is being stopped. -/
  watched : ∀ i c, m.client? i = some c → c.child = some .running →
    m.registry.get? c.language = some i ∨ (∃ n, roles n = .connecting c.language i) ∨
      ∃ n, (roles n).Stops i
  stopping : ∀ i c, m.client? i = some c → c.phase = .shuttingDown →
    ∃ n, (roles n).stopped? = some i
  ended : ∀ i c, m.client? i = some c → c.phase = .terminated → c.child ≠ some .running

variable {m : Manager} {roles : Nat → Role} {n i : Nat} {language : String} {c d : Client}
  {r : Role}

namespace Kept

/-! ### Changes of the manager -/

/-- A client that is changed keeps its language. -/
private theorem found (kept : m.Kept roles) (client : m.client? i = some c)
    (spoken : d.language = c.language) :
    (∀ L j, m.registry.get? L = some j →
      ∃ e, (m.setClient i d).client? j = some e ∧ e.language = L) ∧
    ∀ k L j, roles k = .connecting L j →
      ∃ e, (m.setClient i d).client? j = some e ∧ e.language = L := by
  constructor
  · intro L j hj
    obtain ⟨e, he, rfl⟩ := kept.registered L j hj
    exact exists_client?_setClient client spoken he
  · intro k L j hk
    obtain ⟨e, he, rfl⟩ := kept.connecting k L j hk
    exact exists_client?_setClient client spoken he

/-- A client stays where it stands. -/
theorem stays (kept : m.Kept roles) (client : m.client? i = some c) (stays : Stays c d) :
    (m.setClient i d).Kept roles := by
  obtain ⟨registered, connecting⟩ := kept.found client stays.language
  have before : ∀ j e, (m.setClient i d).client? j = some e →
      ∃ e', m.client? j = some e' ∧ Stays e' e := by
    intro j e he
    obtain ⟨rfl, rfl⟩ | ⟨-, he⟩ := eq_or_client?_of_setClient client he
    · exact ⟨c, client, stays⟩
    · exact ⟨e, he, .refl e⟩
  refine { kept with registered, connecting, watched := ?_, stopping := ?_, ended := ?_ }
  · intro j e he running
    obtain ⟨e', he', hstays⟩ := before j e he
    rw [hstays.language]
    exact kept.watched j e' he' (hstays.child running)
  · intro j e he down
    obtain ⟨e', he', hstays⟩ := before j e he
    exact kept.stopping j e' he' (hstays.phase ▸ down)
  · intro j e he gone running
    obtain ⟨e', he', hstays⟩ := before j e he
    exact kept.ended j e' he' (hstays.phase ▸ gone) (hstays.child running)

/-- A client ends. -/
theorem ends (kept : m.Kept roles) (client : m.client? i = some c) (ends : Ends c d) :
    (m.setClient i d).Kept roles := by
  obtain ⟨registered, connecting⟩ := kept.found client ends.language
  refine { kept with registered, connecting, watched := ?_, stopping := ?_, ended := ?_ }
  · intro j e he running
    obtain ⟨-, rfl⟩ | ⟨-, he⟩ := eq_or_client?_of_setClient client he
    · exact absurd running ends.child
    · exact kept.watched j e he running
  · intro j e he down
    obtain ⟨-, rfl⟩ | ⟨-, he⟩ := eq_or_client?_of_setClient client he
    · rw [ends.phase] at down
      cases down
    · exact kept.stopping j e he down
  · intro j e he gone
    obtain ⟨-, rfl⟩ | ⟨-, he⟩ := eq_or_client?_of_setClient client he
    · exact ends.child
    · exact kept.ended j e he gone

/-- Somebody joins the line at a gate. -/
theorem joinGate (kept : m.Kept roles) (language : String) (a : Agent) :
    (m.joinGate language a).Kept roles :=
  { kept with held := fun n L inside ↦ isHeldBy_joinGate (kept.held n L inside) language a }

/-- A task that has no gate leaves the line at one. -/
theorem leaveGate (kept : m.Kept roles) (language : String) (out : (roles n).inside? = none) :
    (m.leaveGate language (.operation n)).Kept roles := by
  refine { kept with held := fun k L inside ↦ ?_ }
  apply isHeldBy_leaveGate (kept.held k L inside)
  intro same
  cases same
  rw [out] at inside
  cases inside

/-- A registered client that is shut down already, or that has ended, is registered no more. -/
theorem discards (kept : m.Kept roles) (registered : m.registry.get? language = some i)
    (client : m.client? i = some c) (gone : c.phase = .shuttingDown ∨ c.phase = .terminated) :
    { m with registry := m.registry.erase language }.Kept roles := by
  refine { kept with unregistered := ?_, registered := ?_, watched := ?_ }
  · intro k L inside
    rw [Dictionary.get?_erase]
    split
    · rfl
    · exact kept.unregistered k L inside
  · intro L j hj
    exact kept.registered L j (Dictionary.get?_of_get?_erase hj)
  · intro j e he running
    obtain hj | hj | hj := kept.watched j e he running
    · by_cases hL : e.language = language
      · rw [hL, registered] at hj
        cases hj
        have he : m.client? i = some e := he
        rw [client] at he
        cases he
        rcases gone with gone | gone
        · obtain ⟨k, hk⟩ := kept.stopping i c client gone
          exact .inr (.inr ⟨k, .inl hk⟩)
        · exact absurd running (kept.ended i c client gone)
      · left
        change (m.registry.erase language).get? e.language = some j
        rw [Dictionary.get?_erase, if_neg hL]
        exact hj
    · exact .inr (.inl hj)
    · exact .inr (.inr hj)

/-! ### Changes of a task -/

/-- Whoever watches a process that runs: the registry, the given task or another one. -/
private theorem watchers (kept : m.Kept roles) (n : Nat) {j : Nat} {e : Client}
    (client : m.client? j = some e) (running : e.child = some .running) :
    m.registry.get? e.language = some j ∨ (roles n).Watches e.language j ∨
      ∃ k, k ≠ n ∧ (roles k).Watches e.language j := by
  have split {k : Nat} (h : (roles k).Watches e.language j) :
      (roles n).Watches e.language j ∨ ∃ k, k ≠ n ∧ (roles k).Watches e.language j := by
    by_cases hkn : k = n
    · exact .inl (hkn ▸ h)
    · exact .inr ⟨k, hkn, h⟩
  obtain h | ⟨k, h⟩ | ⟨k, h⟩ := kept.watched j e client running
  · exact .inl h
  · exact .inr (split (.inl h))
  · exact .inr (split (.inr h))

/-- Whoever is at the shutdown of a client, if it is not the given task. -/
private theorem stopper (kept : m.Kept roles) (free : (roles n).stopped? = none) {j : Nat}
    {e : Client} (client : m.client? j = some e) (down : e.phase = .shuttingDown) :
    ∃ k, k ≠ n ∧ (roles k).stopped? = some j := by
  obtain ⟨k, hk⟩ := kept.stopping j e client down
  refine ⟨k, ?_, hk⟩
  rintro rfl
  rw [free] at hk
  cases hk

/-- A task turns to something else and the manager changes: what is to be shown of that task, of
the others, of the clients that were there and of those that are. -/
private theorem turn {m' : Manager} (kept : m.Kept roles) (inPlace : r ≠ .misplaced)
    (inside : ∀ L, r.inside? = some L →
      (m'.gate L).isHeldBy (.operation n) = true ∧ m'.registry.get? L = none)
    (others : ∀ k, k ≠ n → ∀ L, (roles k).inside? = some L →
      (m'.gate L).isHeldBy (.operation k) = true ∧ m'.registry.get? L = none)
    (registered : ∀ L j, m'.registry.get? L = some j →
      ∃ e, m'.client? j = some e ∧ e.language = L)
    (begun : ∀ L j, r = .connecting L j → ∃ e, m'.client? j = some e ∧ e.language = L)
    (connecting : ∀ k L j, roles k = .connecting L j →
      ∃ e, m'.client? j = some e ∧ e.language = L)
    (watched : ∀ j e, m'.client? j = some e → e.child = some .running →
      m'.registry.get? e.language = some j ∨ r.Watches e.language j ∨
        ∃ k, k ≠ n ∧ (roles k).Watches e.language j)
    (stopping : ∀ j e, m'.client? j = some e → e.phase = .shuttingDown →
      r.stopped? = some j ∨ ∃ k, k ≠ n ∧ (roles k).stopped? = some j)
    (ended : ∀ j e, m'.client? j = some e → e.phase = .terminated → e.child ≠ some .running) :
    m'.Kept (Function.update roles n r) := by
  have own : Function.update roles n r n = r := Function.update_self n r roles
  have other {k : Nat} (hkn : k ≠ n) : Function.update roles n r k = roles k :=
    Function.update_of_ne hkn r roles
  have all (k L) (hk : (Function.update roles n r k).inside? = some L) :
      (m'.gate L).isHeldBy (.operation k) = true ∧ m'.registry.get? L = none := by
    by_cases hkn : k = n
    · subst hkn
      exact inside L (own ▸ hk)
    · exact others k hkn L (other hkn ▸ hk)
  refine ⟨fun k L hk ↦ (all k L hk).1, fun k L hk ↦ (all k L hk).2, fun k ↦ ?_, registered,
    fun k L j hk ↦ ?_, fun j e he running ↦ ?_, fun j e he down ↦ ?_, ended⟩
  · rw [Function.update_apply]
    split
    · exact inPlace
    · exact kept.inPlace k
  · rw [Function.update_apply] at hk
    split at hk
    · exact begun L j hk
    · exact connecting k L j hk
  · obtain h | (h | h) | ⟨k, hkn, h | h⟩ := watched j e he running
    · exact .inl h
    · exact .inr (.inl ⟨n, own.trans h⟩)
    · exact .inr (.inr ⟨n, own.symm ▸ h⟩)
    · exact .inr (.inl ⟨k, (other hkn).trans h⟩)
    · exact .inr (.inr ⟨k, (other hkn).symm ▸ h⟩)
  · obtain h | ⟨k, hkn, h⟩ := stopping j e he down
    · exact ⟨n, own.symm ▸ h⟩
    · exact ⟨k, (other hkn).symm ▸ h⟩

/-- A task turns to something else: it must have the gate of a language that nobody else may start
clients of, and it may let go of what does not run or is watched by others. -/
theorem assign (kept : m.Kept roles)
    (inside : ∀ L, r.inside? = some L →
      (m.gate L).isHeldBy (.operation n) = true ∧ m.registry.get? L = none)
    (inPlace : r ≠ .misplaced) (begun : ∀ L j, r ≠ .connecting L j)
    (watched : ∀ j e, m.client? j = some e → e.child = some .running →
      (roles n).Watches e.language j → r.Stops j ∨ ∃ k, k ≠ n ∧ (roles k).Stops j)
    (stopping : ∀ j e, m.client? j = some e → e.phase = .shuttingDown →
      (roles n).stopped? = some j → r.stopped? = some j) :
    m.Kept (Function.update roles n r) := by
  refine kept.turn inPlace inside (fun k _ L hk ↦ ⟨kept.held k L hk, kept.unregistered k L hk⟩)
    kept.registered (fun L j h ↦ absurd h (begun L j)) kept.connecting ?_ ?_ kept.ended
  · intro j e he running
    obtain h | h | h := kept.watchers n he running
    · exact .inl h
    · obtain h | ⟨k, hkn, h⟩ := watched j e he running h
      · exact .inr (.inl (.inr h))
      · exact .inr (.inr ⟨k, hkn, .inr h⟩)
    · exact .inr (.inr h)
  · intro j e he down
    obtain ⟨k, hk⟩ := kept.stopping j e he down
    by_cases hkn : k = n
    · subst hkn
      exact .inl (stopping j e he down hk)
    · exact .inr ⟨k, hkn, hk⟩

/-- A task that shut down nothing begins to shut a client down, which may be registered no more
from then on. -/
theorem shutsDown (kept : m.Kept roles) {registry : Dictionary Nat}
    (fewer : ∀ L j, registry.get? L = some j → m.registry.get? L = some j)
    (same : ∀ L j, m.registry.get? L = some j → j ≠ i → registry.get? L = some j)
    (client : m.client? i = some c) (spoken : d.language = c.language)
    (phase : d.phase = .shuttingDown)
    (inside : ∀ L, r.inside? = some L →
      (m.gate L).isHeldBy (.operation n) = true ∧ registry.get? L = none)
    (free : (roles n).stopped? = none) (unbegun : ∀ L j, roles n ≠ .connecting L j)
    (stopped : r.stopped? = some i) (later : ∀ j ∈ (roles n).later, j = i ∨ j ∈ r.later) :
    ({ m with registry }.setClient i d).Kept (Function.update roles n r) := by
  obtain ⟨registered, connecting⟩ := kept.found client spoken
  have client' : { m with registry }.client? i = some c := client
  refine kept.turn ?_ inside ?_ (fun L j hj ↦ registered L j (fewer L j hj)) ?_ connecting
    ?_ ?_ ?_
  · rintro rfl
    cases stopped
  · intro k _ L hk
    refine ⟨kept.held k L hk, Option.eq_none_iff_forall_ne_some.mpr fun j hj ↦ ?_⟩
    have vacant := kept.unregistered k L hk
    rw [fewer L j hj] at vacant
    cases vacant
  · rintro L j rfl
    cases stopped
  · intro j e he running
    obtain ⟨rfl, rfl⟩ | ⟨hji, he⟩ := eq_or_client?_of_setClient client' he
    · exact .inr (.inl (.inr (.inl stopped)))
    · obtain h | (h | h | h) | h := kept.watchers n he running
      · exact .inl (same e.language j h hji)
      · exact absurd h (unbegun e.language j)
      · rw [free] at h
        cases h
      · obtain rfl | h := later j h
        · exact absurd rfl hji
        · exact .inr (.inl (.inr (.inr h)))
      · exact .inr (.inr h)
  · intro j e he down
    obtain ⟨rfl, rfl⟩ | ⟨hji, he⟩ := eq_or_client?_of_setClient client' he
    · exact .inl stopped
    · exact .inr (kept.stopper free he down)
  · intro j e he gone
    obtain ⟨rfl, rfl⟩ | ⟨hji, he⟩ := eq_or_client?_of_setClient client' he
    · rw [phase] at gone
      cases gone
    · exact kept.ended j e he gone

/-- A task that was admitted starts a client. -/
theorem launches (kept : m.Kept roles) (role : roles n = .admitted language)
    (command : List String) (spoken : c.language = language) (phase : c.phase = .starting) :
    (m.addClient ⟨command, c⟩).Kept
      (Function.update roles n (.connecting language m.clients.length)) := by
  have before (j e) (he : (m.addClient ⟨command, c⟩).client? j = some e) :
      j = m.clients.length ∧ e = c ∨ m.client? j = some e := by
    rw [client?_addClient] at he
    split at he
    · next h =>
      cases he
      exact .inl ⟨h, rfl⟩
    · exact .inr he
  have after (L j) (h : ∃ e, m.client? j = some e ∧ e.language = L) :
      ∃ e, (m.addClient ⟨command, c⟩).client? j = some e ∧ e.language = L := by
    obtain ⟨e, he, hL⟩ := h
    refine ⟨e, ?_, hL⟩
    rw [client?_addClient, if_neg, he]
    rintro rfl
    rw [client?_length] at he
    cases he
  have entitled (L) (h : Role.inside? (.connecting language m.clients.length) = some L) :
      (m.gate L).isHeldBy (.operation n) = true ∧ m.registry.get? L = none := by
    have inside : (roles n).inside? = some L := by
      rw [role]
      exact h
    exact ⟨kept.held n L inside, kept.unregistered n L inside⟩
  refine kept.turn (by simp) entitled
    (fun k _ L hk ↦ ⟨kept.held k L hk, kept.unregistered k L hk⟩)
    (fun L j hj ↦ after L j (kept.registered L j hj)) ?_
    (fun k L j hk ↦ after L j (kept.connecting k L j hk)) ?_ ?_ ?_
  · intro L j h
    cases h
    exact ⟨c, by rw [client?_addClient, if_pos rfl], spoken⟩
  · intro j e he running
    obtain ⟨rfl, rfl⟩ | he := before j e he
    · exact .inr (.inl (.inl (by rw [spoken])))
    · obtain h | h | h := kept.watchers n he running
      · exact .inl h
      · rw [role] at h
        rcases h with h | h | h <;> cases h
      · exact .inr (.inr h)
  · intro j e he down
    obtain ⟨rfl, rfl⟩ | he := before j e he
    · rw [phase] at down
      cases down
    · exact .inr (kept.stopper (by rw [role]; rfl) he down)
  · intro j e he gone
    obtain ⟨rfl, rfl⟩ | he := before j e he
    · rw [phase] at gone
      cases gone
    · exact kept.ended j e he gone

/-- Two tasks that may start clients of one language are one, as both have its gate. -/
theorem eq_of_inside (kept : m.Kept roles) {k : Nat} (first : (roles n).inside? = some language)
    (second : (roles k).inside? = some language) : n = k := by
  cases Lock.eq_of_isHeldBy (kept.held n language first) (kept.held k language second)
  rfl

/-- A task registers the client that it has started. -/
theorem registers (kept : m.Kept roles) (role : roles n = .connecting language i)
    (client : m.client? i = some c) (spoken : d.language = c.language) (phase : d.phase = .ready) :
    { m.setClient i d with registry := m.registry.insert language i }.Kept
      (Function.update roles n .idle) := by
  have inside : (roles n).inside? = some language := by
    rw [role]
    rfl
  have own : c.language = language := by
    obtain ⟨e, he, hL⟩ := kept.connecting n language i role
    rw [client] at he
    cases he
    exact hL
  obtain ⟨registered, connecting⟩ := kept.found client spoken
  refine kept.turn (by simp) (fun L h ↦ by cases h) ?_ ?_ (fun L j h ↦ by cases h) connecting
    ?_ ?_ ?_
  · intro k hkn L hk
    have different : L ≠ language := by
      rintro rfl
      exact hkn (kept.eq_of_inside hk inside)
    refine ⟨kept.held k L hk, ?_⟩
    change (m.registry.insert language i).get? L = none
    rw [Dictionary.get?_insert, if_neg different]
    exact kept.unregistered k L hk
  · intro L j hj
    change (m.registry.insert language i).get? L = some j at hj
    rw [Dictionary.get?_insert] at hj
    split at hj
    · next h =>
      cases hj
      exact ⟨d, (client?_setClient_of_some client d i).trans (if_pos rfl),
        (spoken.trans own).trans h.symm⟩
    · exact registered L j hj
  · intro j e he running
    change (m.registry.insert language i).get? e.language = some j ∨ _
    rw [Dictionary.get?_insert]
    obtain ⟨rfl, rfl⟩ | ⟨hji, he⟩ := eq_or_client?_of_setClient client he
    · exact .inl (if_pos (spoken.trans own))
    · obtain h | h | h := kept.watchers n he running
      · left
        rw [if_neg, h]
        rintro same
        rw [same, kept.unregistered n language inside] at h
        cases h
      · rw [role] at h
        rcases h with h | h | h
        · cases h
          exact absurd rfl hji
        · cases h
        · cases h
      · exact .inr (.inr h)
  · intro j e he down
    obtain ⟨rfl, rfl⟩ | ⟨hji, he⟩ := eq_or_client?_of_setClient client he
    · rw [phase] at down
      cases down
    · exact .inr (kept.stopper (by rw [role]; rfl) he down)
  · intro j e he gone
    obtain ⟨rfl, rfl⟩ | ⟨hji, he⟩ := eq_or_client?_of_setClient client he
    · rw [phase] at gone
      cases gone
    · exact kept.ended j e he gone

end Kept

end Manager

end LanguageHub
