import LanguageHub.Proofs.Client.Phases
import LanguageHub.Proofs.Manager.Lookup

/-!
# The steps of a way to a client

What a step of a way to the client of a language can be, case by case: what it comes to and what
it makes of the manager.
-/

namespace LanguageHub

open Client

namespace Obtaining

/-- How a way goes on when there is no registered client, in front of the gate or behind it. -/
inductive GoesOn (a : Agent) (language : String) (m : Manager) :
    Bool → Progress Obtaining Outcome → Manager → Prop where
  | queues : GoesOn a language m false (.running .queued) (m.joinGate language a)
  | unknown {f : Failure} : GoesOn a language m false (.finished (.error f)) m
  | refused {f : Failure} :
      GoesOn a language m true (.finished (.error f)) (m.leaveGate language a)
  | launches {command : List String} {c : Client} {k : Connecting}
      (spoken : c.language = language) (phase : c.phase = .starting) :
      GoesOn a language m true (.running (.connecting m.clients.length k))
        (m.addClient ⟨command, c⟩)

/-- What the look for a registered client leads to, in front of the gate or behind it. -/
inductive Seeks (a : Agent) (language : String) (m : Manager) (hasGate : Bool) :
    Progress Obtaining Outcome → Manager → Prop where
  | takes {i : Nat} {c : Client} (registered : m.registry.get? language = some i)
      (client : m.client? i = some c) (ready : c.isReady = true) :
      Seeks a language m hasGate (.finished (.ok i))
        (if hasGate then m.leaveGate language a else m)
  | evicts {i : Nat} {c d : Client} {k : Shutdown}
      (registered : m.registry.get? language = some i) (client : m.client? i = some c)
      (unready : c.isReady = false) (spoken : d.language = c.language)
      (phase : d.phase = .shuttingDown) (child : d.child = c.child) :
      Seeks a language m hasGate (.running (.evicting hasGate i k))
        ({ m with registry := m.registry.erase language }.setClient i d)
  | vacant {p : Progress Obtaining Outcome} {n : Manager}
      (vacant : ∀ i, m.registry.get? language = some i → m.client? i = none)
      (goesOn : GoesOn a language m hasGate p n) : Seeks a language m hasGate p n
  /-- The registered client is shut down already or has ended. -/
  | discards {i : Nat} {c : Client} {p : Progress Obtaining Outcome} {n : Manager}
      (registered : m.registry.get? language = some i) (client : m.client? i = some c)
      (gone : c.phase = .shuttingDown ∨ c.phase = .terminated)
      (goesOn : GoesOn a language { m with registry := m.registry.erase language } hasGate p n) :
      Seeks a language m hasGate p n

/-- What a step of a way can be. -/
inductive Takes (a : Agent) (language : String) (m : Manager) :
    Obtaining → Progress Obtaining Outcome → Manager → Prop where
  | evicts {hasGate : Bool} {i : Nat} {c d : Client} {k k' : Shutdown}
      (client : m.client? i = some c) (stays : Stays c d) :
      Takes a language m (.evicting hasGate i k) (.running (.evicting hasGate i k'))
        (m.setClient i d)
  | evicted {hasGate : Bool} {i : Nat} {c d : Client} {k : Shutdown}
      {p : Progress Obtaining Outcome} {n : Manager} (client : m.client? i = some c)
      (ends : Ends c d) (goesOn : GoesOn a language (m.setClient i d) hasGate p n) :
      Takes a language m (.evicting hasGate i k) p n
  | enters {p : Progress Obtaining Outcome} {n : Manager}
      (held : (m.gate language).isHeldBy a = true) (seeks : Seeks a language m true p n) :
      Takes a language m .queued p n
  | connects {i : Nat} {c d : Client} {k k' : Connecting} (client : m.client? i = some c)
      (stays : Stays c d) :
      Takes a language m (.connecting i k) (.running (.connecting i k')) (m.setClient i d)
  | fails {i : Nat} {c d : Client} {k : Connecting} {f : Failure}
      (client : m.client? i = some c) (ends : Ends c d) :
      Takes a language m (.connecting i k) (.finished (.error f))
        ((m.setClient i d).leaveGate language a)
  | registers {i : Nat} {c d : Client} {k : Connecting} (client : m.client? i = some c)
      (spoken : d.language = c.language) (phase : d.phase = .ready) (child : d.child = c.child)
      (vacant : ∀ j, m.registry.get? language = some j → (m.setClient i d).client? j = none) :
      Takes a language m (.connecting i k) (.finished (.ok i))
        ({ m.setClient i d with
            registry := m.registry.insert language i }.leaveGate language a)
  /-- Another client is registered where the new one is to be. -/
  | displaces {i j : Nat} {d : Client} {k : Connecting} {p : Progress Obtaining Outcome}
      {n : Manager} (registered : m.registry.get? language = some j)
      (occupied : (m.setClient i d).client? j ≠ none) :
      Takes a language m (.connecting i k) p n
  | displacing {i j : Nat} {k : Shutdown} {p : Progress Obtaining Outcome} {n : Manager} :
      Takes a language m (.displacing i j k) p n

variable {a : Agent} {now : Nat} {refusal : Refusal} {language : String} {hasGate : Bool}
  {m n : Manager} {o : Obtaining} {p : Progress Obtaining Outcome}

/-- What goes on behind the gate is the start of a client. -/
private theorem goesOn_of_launch (h : launch a refusal language m = (p, n)) :
    GoesOn a language m true p n := by
  obtain ⟨c, hlaunch, spoken, phase⟩ :=
    m.launch_eq language (m.commands.commandFor language) m.limit
  unfold launch at h
  simp only [hlaunch, Manager.client?_addClient, if_pos] at h
  split at h
  · cases h
    exact .refused
  · cases h
    exact .refused
  · obtain ⟨stays, k, running⟩ := Connecting.spec_start a
      (Connecting.greeting 0 ((m.addClient ⟨m.commands.commandFor language, c⟩).uriOf
        (m.addClient ⟨m.commands.commandFor language, c⟩).root)) c
    split at h
    · next k' d hstart =>
      rw [hstart] at stays
      cases h
      rw [Manager.setClient_addClient]
      exact .launches (stays.language.trans spoken) (stays.phase.trans phase)
    all_goals
      next hstart =>
        rw [hstart] at running
        cases running

/-- The way goes on like this. -/
theorem goesOn_of_goOn (h : goOn a refusal language hasGate m = (p, n)) :
    GoesOn a language m hasGate p n := by
  unfold goOn at h
  split at h
  · next behind =>
    rw [behind]
    exact goesOn_of_launch h
  · next before =>
    rw [Bool.not_eq_true] at before
    rw [before]
    split at h
    · cases h
      exact .queues
    · cases h
      exact .unknown

/-- The look for a registered client leads to this. -/
theorem seeks_of_seek (h : seek a now refusal language hasGate m = (p, n)) :
    Seeks a language m hasGate p n := by
  unfold seek at h
  split at h
  · next hnone => exact .vacant (fun i hi ↦ by rw [hnone] at hi; cases hi) (goesOn_of_goOn h)
  · next i registered =>
    split at h
    · next hnone =>
      refine .vacant (fun j hj ↦ ?_) (goesOn_of_goOn h)
      rw [registered] at hj
      cases hj
      exact hnone
    · next c client =>
      split at h
      · next ready =>
        cases h
        exact .takes registered client ready
      · next unready =>
        have spec := Shutdown.spec_start a now c
        split at h
        · next k d hstart =>
          rw [hstart] at spec
          obtain ⟨spoken, phase, child⟩ := spec
          cases h
          exact .evicts registered client (Bool.eq_false_iff.mpr unready) spoken phase child
        · next d hstart =>
          rw [hstart] at spec
          obtain ⟨rfl, gone⟩ := spec
          have client' : { m with registry := m.registry.erase language }.client? i = some d :=
            client
          simp only [Manager.setClient_self client'] at h
          exact .discards registered client gone (goesOn_of_goOn h)

/-- A step of a way is one of these. -/
theorem takes_of_step? (step : o.step? a now refusal language m = some (p, n)) :
    Takes a language m o p n := by
  cases o with
  | evicting hasGate i k =>
    simp only [step?, Option.bind_eq_bind, Option.bind_eq_some_iff, Prod.exists] at step
    obtain ⟨c, client, q, d, hstep, h⟩ := step
    have spec := Shutdown.spec_of_step? hstep
    cases q with
    | running k' =>
      cases h
      exact .evicts client spec
    | finished _ => exact .evicted client spec (goesOn_of_goOn (Option.some.inj h))
  | queued =>
    simp only [step?] at step
    split at step
    · next held => exact .enters held (seeks_of_seek (Option.some.inj step))
    · cases step
  | connecting i k =>
    simp only [step?, Option.bind_eq_bind, Option.bind_eq_some_iff, Prod.exists] at step
    obtain ⟨c, client, q, d, hstep, h⟩ := step
    have spec := Connecting.spec_of_step? hstep
    cases q with
    | running k' =>
      cases h
      exact .connects client spec
    | finished answer =>
      cases answer with
      | error f =>
        cases h
        exact .fails client spec
      | ok _ =>
        obtain ⟨spoken, phase, child⟩ := spec
        have h := Option.some.inj h
        unfold publish at h
        simp only at h
        split at h
        · next hnone =>
          cases h
          refine .registers client spoken phase child fun j hj ↦ ?_
          have hnone : m.registry.get? language = none := hnone
          rw [hnone] at hj
          cases hj
        · next j registered =>
          split at h
          · next hnone =>
            cases h
            refine .registers client spoken phase child fun j' hj' ↦ ?_
            have registered : m.registry.get? language = some j := registered
            rw [registered] at hj'
            cases hj'
            exact hnone
          · next e occupied =>
            have occupied : (m.setClient i d).client? j = some e := occupied
            have full : (m.setClient i d).client? j ≠ none := by simp [occupied]
            exact .displaces registered full
  | displacing i j k => exact .displacing

end Obtaining

end LanguageHub
