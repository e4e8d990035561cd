import LanguageHub.Manager.Obtaining
import Mathlib.Data.List.Basic

/-!
# Looking up clients and gates

What the changes of a manager do to the client under every number and to the gate of every
language, and who holds a lock after others have come and gone.
-/

namespace LanguageHub

/-! ### Locks -/

namespace Lock

variable {l : Lock} {a b : Agent}

/-- Whoever holds a lock still holds it when others ask for it. -/
theorem isHeldBy_request (held : l.isHeldBy a = true) (b : Agent) :
    (l.request b).isHeldBy a = true := by
  unfold isHeldBy at held ⊢
  rw [beq_iff_eq] at held ⊢
  rw [request, List.head?_append, held, Option.some_or]

/-- Whoever holds a lock still holds it when others leave. -/
theorem isHeldBy_leave (held : l.isHeldBy a = true) (other : a ≠ b) :
    (l.leave b).isHeldBy a = true := by
  unfold isHeldBy at held ⊢
  rw [beq_iff_eq] at held ⊢
  obtain ⟨rest, hline⟩ := List.head?_eq_some_iff.mp held
  rw [leave, hline, List.filter_cons_of_pos (by simpa using other), List.head?_cons]

/-- A lock is held by one agent at a time. -/
theorem eq_of_isHeldBy (first : l.isHeldBy a = true) (second : l.isHeldBy b = true) : a = b := by
  unfold isHeldBy at first second
  rw [beq_iff_eq] at first second
  rw [first, Option.some.injEq] at second
  exact second

end Lock

/-- What is found after an entry was erased was there before. -/
theorem Dictionary.get?_of_get?_erase {α : Type} {d : Dictionary α} {erased key : String}
    {value : α} (found : (d.erase erased).get? key = some value) : d.get? key = some value := by
  rw [get?_erase] at found
  split at found
  · cases found
  · exact found

/-- What is found in a dictionary is among its values. -/
theorem Dictionary.mem_of_get? {α : Type} {d : Dictionary α} {key : String} {value : α}
    (found : d.get? key = some value) : value ∈ d.entries.map (·.2) := by
  obtain ⟨entries⟩ := d
  simp only [get?] at found ⊢
  induction entries with
  | nil => cases found
  | cons e rest ih =>
    obtain ⟨k, v⟩ := e
    simp only [lookup] at found
    rw [List.map_cons, List.mem_cons]
    split at found
    · cases found
      exact .inl rfl
    · exact .inr (ih found)

namespace Manager

variable {m : Manager} {i : Nat} {c : Client}

/-! ### Clients -/

/-- A client that is changed. -/
theorem client?_setClient (m : Manager) (i : Nat) (c : Client) (j : Nat) :
    (m.setClient i c).client? j =
      if j = i then (m.client? i).map fun _ ↦ c else m.client? j := by
  simp only [client?, setClient, List.getElem?_modify]
  by_cases h : j = i
  · subst h
    rw [if_pos rfl]
    cases m.clients[j]? <;> simp
  · have hne : ¬ i = j := fun e ↦ h e.symm
    rw [if_neg h]
    simp [hne]

/-- A client that is changed, if there is one. -/
theorem client?_setClient_of_some (client : m.client? i = some c) (d : Client) (j : Nat) :
    (m.setClient i d).client? j = if j = i then some d else m.client? j := by
  rw [client?_setClient, client]
  rfl

/-- The clients after one was changed: that one, and the others as they were. -/
theorem eq_or_client?_of_setClient (client : m.client? i = some c) {d e : Client} {j : Nat}
    (found : (m.setClient i d).client? j = some e) :
    j = i ∧ e = d ∨ j ≠ i ∧ m.client? j = some e := by
  rw [client?_setClient_of_some client] at found
  split at found
  · next h =>
    cases found
    exact .inl ⟨h, rfl⟩
  · next h => exact .inr ⟨h, found⟩

/-- A client is still there, in its language, after one was changed that keeps its own. -/
theorem exists_client?_setClient (client : m.client? i = some c) {d e : Client}
    (spoken : d.language = c.language) {j : Nat} (found : m.client? j = some e) :
    ∃ e', (m.setClient i d).client? j = some e' ∧ e'.language = e.language := by
  rw [client?_setClient_of_some client]
  split
  · next h =>
    subst h
    rw [client] at found
    cases found
    exact ⟨d, rfl, spoken⟩
  · exact ⟨e, found, rfl⟩

/-- A client that is replaced by itself. -/
theorem setClient_self (client : m.client? i = some c) : m.setClient i c = m := by
  have hclients : (m.clients.modify i fun s ↦ { s with client := c }) = m.clients := by
    apply List.ext_getElem?
    intro j
    rw [List.getElem?_modify]
    by_cases h : i = j
    · subst h
      simp only [client?, Option.map_eq_some_iff] at client
      obtain ⟨s, hs, rfl⟩ := client
      rw [hs]
      simp
    · simp [h]
  rw [setClient, hclients]

/-- A manager with one more client. -/
def addClient (m : Manager) (s : StartedClient) : Manager :=
  { m with clients := m.clients ++ [s] }

/-- A client that is added gets the next number. -/
theorem client?_addClient (m : Manager) (s : StartedClient) (j : Nat) :
    (m.addClient s).client? j = if j = m.clients.length then some s.client else m.client? j := by
  simp only [client?, addClient]
  by_cases h : j = m.clients.length
  · subst h
    rw [if_pos rfl, List.getElem?_concat_length]
    rfl
  · rw [if_neg h, List.getElem?_append]
    split
    · rfl
    · next hlt =>
      have hj : m.clients.length < j := by omega
      rw [List.getElem?_eq_none (by simp only [List.length_singleton]; omega),
        List.getElem?_eq_none (by omega)]

/-- A client that is started is added at the beginning of its handshake. -/
theorem launch_eq (m : Manager) (language : String) (command : List String)
    (limit : Option Duration) : ∃ c,
      m.launch language command limit = (m.clients.length, m.addClient ⟨command, c⟩) ∧
        c.language = language ∧ c.phase = .starting :=
  ⟨_, rfl, rfl, rfl⟩

/-- There is no client under the next number. -/
theorem client?_length (m : Manager) : m.client? m.clients.length = none := by
  rw [client?, List.getElem?_eq_none (Nat.le_refl _)]
  rfl

/-- A client that was just added and is changed. -/
theorem setClient_addClient (m : Manager) (s : StartedClient) (c : Client) :
    (m.addClient s).setClient m.clients.length c = m.addClient { s with client := c } := by
  simp only [setClient, addClient]
  congr 1
  apply List.ext_getElem?
  intro j
  rw [List.getElem?_modify]
  by_cases h : m.clients.length = j
  · subst h
    rw [List.getElem?_concat_length, List.getElem?_concat_length]
    simp
  · simp only [if_neg h, List.getElem?_append]
    split
    · simp
    · next hlt =>
      have hj : ¬ j - m.clients.length = 0 := by omega
      rw [List.getElem?_singleton, List.getElem?_singleton, if_neg hj, if_neg hj]
      rfl

/-! ### Gates -/

variable {language : String} {a : Agent}

/-- The gates after somebody has joined the line at one. -/
theorem gate_joinGate (m : Manager) (language : String) (a : Agent) (other : String) :
    (m.joinGate language a).gate other =
      if other = language then (m.gate language).request a else m.gate other := by
  simp only [gate, joinGate, Dictionary.get?_insert]
  split <;> rfl

/-- The gates after somebody has left one. -/
theorem gate_leaveGate (m : Manager) (language : String) (a : Agent) (other : String) :
    (m.leaveGate language a).gate other =
      if other = language then (m.gate language).leave a else m.gate other := by
  simp only [gate, leaveGate, Dictionary.get?_insert]
  split <;> rfl

/-- Whoever holds a gate still holds it when others join the line at one. -/
theorem isHeldBy_joinGate (held : (m.gate language).isHeldBy a = true) (other : String)
    (b : Agent) : ((m.joinGate other b).gate language).isHeldBy a = true := by
  rw [gate_joinGate]
  split
  · next h =>
    subst h
    exact Lock.isHeldBy_request held b
  · exact held

/-- Whoever holds a gate still holds it when others leave one. -/
theorem isHeldBy_leaveGate (held : (m.gate language).isHeldBy a = true) (other : String)
    {b : Agent} (different : a ≠ b) :
    ((m.leaveGate other b).gate language).isHeldBy a = true := by
  rw [gate_leaveGate]
  split
  · next h =>
    subst h
    exact Lock.isHeldBy_leave held different
  · exact held

end Manager

end LanguageHub
