import LanguageHub.Manager.Session
import LanguageHub.Proofs.Manager.Roster

/-!
# Every operation of a manager keeps its roster

The start and every step of an operation lead from a manager that agrees with what its tasks are
about to one that does: function by function, along the way to a client and along the shutdown of a
list of clients.
-/

namespace LanguageHub

open Client

namespace Manager.Kept

variable {m m' : Manager} {roles : Nat → Role} {n now : Nat} {language : String}
  {hasGate : Bool} {p : Progress Obtaining Obtaining.Outcome} {r : Role}

/-- A task that watches nobody turns to something else. -/
private theorem turns (kept : m.Kept roles)
    (inside : ∀ L, r.inside? = some L →
      (m.gate L).isHeldBy (.operation n) = true ∧ m.registry.get? L = none)
    (inPlace : r ≠ .misplaced) (begun : ∀ L j, r ≠ .connecting L j)
    (unbegun : ∀ L j, roles n ≠ .connecting L j) (free : ∀ j, ¬ (roles n).Stops j) :
    m.Kept (Function.update roles n r) := by
  refine kept.assign inside inPlace begun ?_ ?_
  · rintro j e - - (h | h)
    · exact absurd h (unbegun _ _)
    · exact absurd h (free j)
  · intro j e _ _ h
    exact absurd (.inl h) (free j)

/-- A task that is about the same as before. -/
theorem same (kept : m.Kept roles) (role : roles n = r) : m.Kept (Function.update roles n r) := by
  rw [← role, Function.update_eq_self]
  exact kept

/-! ### The way to a client -/

/-- The way that goes on when there is no registered client. -/
theorem goesOn (kept : m.Kept roles)
    (role : roles n = if hasGate then .admitted language else .idle)
    (goesOn : Obtaining.GoesOn (.operation n) language m hasGate p m') :
    m'.Kept (Function.update roles n (Obtaining.roleOf language p)) := by
  have unbegun : ∀ L j, roles n ≠ .connecting L j := by
    intro L j h
    rw [role] at h
    split at h <;> cases h
  have free : ∀ j, ¬ (roles n).Stops j := by
    rw [role]
    split <;> rintro j (h | h) <;> cases h
  cases goesOn with
  | queues =>
    have queued : m.Kept (Function.update roles n (.queued language)) :=
      kept.turns (fun L h ↦ by cases h) (by simp) (by simp) unbegun free
    exact queued.joinGate language (.operation n)
  | unknown =>
    exact kept.turns (fun L h ↦ by cases h) (by simp [Obtaining.roleOf])
      (by simp [Obtaining.roleOf]) unbegun free
  | refused =>
    have out : m.Kept (Function.update roles n .idle) :=
      kept.turns (fun L h ↦ by cases h) (by simp) (by simp) unbegun free
    exact out.leaveGate language (by rw [Function.update_self]; rfl)
  | launches spoken phase => exact kept.launches role _ spoken phase

/-- The way that goes on behind the gate or in front of it when nothing is registered. -/
private theorem admits (kept : m.Kept roles)
    (role : roles n = if hasGate then .queued language else .idle)
    (held : hasGate = true → (m.gate language).isHeldBy (.operation n) = true)
    (vacant : m.registry.get? language = none)
    (goesOn : Obtaining.GoesOn (.operation n) language m hasGate p m') :
    m'.Kept (Function.update roles n (Obtaining.roleOf language p)) := by
  cases hasGate with
  | false => exact kept.goesOn role goesOn
  | true =>
    have admitted : m.Kept (Function.update roles n (.admitted language)) := by
      refine kept.turns (fun L h ↦ ?_) (by simp) (by simp) (fun L j h ↦ ?_) ?_
      · cases h
        exact ⟨held rfl, vacant⟩
      · rw [role] at h
        cases h
      · rw [role]
        rintro j (h | h) <;> cases h
    have next := admitted.goesOn (by rw [Function.update_self]; rfl) goesOn
    rw [Function.update_idem] at next
    exact next

/-- The look for a registered client. -/
theorem seeks (kept : m.Kept roles)
    (role : roles n = if hasGate then .queued language else .idle)
    (held : hasGate = true → (m.gate language).isHeldBy (.operation n) = true)
    (seeks : Obtaining.Seeks (.operation n) language m hasGate p m') :
    m'.Kept (Function.update roles n (Obtaining.roleOf language p)) := by
  have unbegun : ∀ L j, roles n ≠ .connecting L j := by
    intro L j h
    rw [role] at h
    split at h <;> cases h
  have free : ∀ j, ¬ (roles n).Stops j := by
    rw [role]
    split <;> rintro j (h | h) <;> cases h
  cases seeks with
  | takes registered client ready =>
    have out : m.Kept (Function.update roles n .idle) :=
      kept.turns (fun L h ↦ by cases h) (by simp) (by simp) unbegun free
    cases hasGate with
    | false => exact out
    | true => exact out.leaveGate language (by rw [Function.update_self]; rfl)
  | @evicts i c d k registered client unready spoken phase child =>
    refine kept.shutsDown (fun _ _ ↦ Dictionary.get?_of_get?_erase) ?_ client spoken phase ?_ ?_
      unbegun rfl ?_
    · intro L j hj hji
      rw [Dictionary.get?_erase]
      split
      · next h =>
        rw [h, registered] at hj
        cases hj
        exact absurd rfl hji
      · exact hj
    · intro L h
      cases hasGate with
      | false => cases h
      | true =>
        cases h
        refine ⟨held rfl, ?_⟩
        rw [Dictionary.get?_erase, if_pos rfl]
    · rw [role]
      split <;> rfl
    · intro j hj
      rw [role] at hj
      split at hj <;> cases hj
  | vacant vacant goesOn =>
    have nothing : m.registry.get? language = none := by
      apply Option.eq_none_iff_forall_ne_some.mpr
      intro i hi
      obtain ⟨c, hc, -⟩ := kept.registered language i hi
      rw [vacant i hi] at hc
      cases hc
    exact kept.admits role held nothing goesOn
  | discards registered client gone goesOn =>
    refine (kept.discards registered client gone).admits role held ?_ goesOn
    change (m.registry.erase language).get? language = none
    rw [Dictionary.get?_erase, if_pos rfl]

/-- A step of the way. -/
theorem takes {o : Obtaining} (kept : m.Kept roles) (role : roles n = o.role language)
    (takes : Obtaining.Takes (.operation n) language m o p m') :
    m'.Kept (Function.update roles n (Obtaining.roleOf language p)) := by
  cases takes with
  | evicts client stays => exact (kept.stays client stays).same role
  | @evicted hasGate i c d k p n' client ends goesOn =>
    have gone : ∀ j e, (m.setClient i d).client? j = some e → j = i →
        e.child ≠ some .running ∧ e.phase ≠ .shuttingDown := by
      intro j e he hj
      obtain ⟨-, rfl⟩ | ⟨hne, -⟩ := eq_or_client?_of_setClient client he
      · exact ⟨ends.child, by rw [ends.phase]; simp⟩
      · exact absurd hj hne
    have ended := kept.ends client ends
    have next : (m.setClient i d).Kept
        (Function.update roles n (if hasGate then .admitted language else .idle)) := by
      refine ended.assign (fun L h ↦ ?_) ?_ ?_ ?_ ?_
      · cases hasGate with
        | false => cases h
        | true =>
          cases h
          exact ⟨ended.held n language (by rw [role]; rfl),
            ended.unregistered n language (by rw [role]; rfl)⟩
      · split <;> simp
      · split <;> simp
      · intro j e he running h
        exfalso
        refine (gone j e he ?_).1 running
        rw [role] at h
        rcases h with h | h | h
        · cases h
        · exact (Option.some.inj h).symm
        · cases h
      · intro j e he down h
        exfalso
        refine (gone j e he ?_).2 down
        rw [role] at h
        exact (Option.some.inj h).symm
    have last := next.goesOn (by rw [Function.update_self]) goesOn
    rw [Function.update_idem] at last
    exact last
  | enters held seeks =>
    have role : roles n = if true then .queued language else .idle := role
    exact kept.seeks role (fun _ ↦ held) seeks
  | connects client stays => exact (kept.stays client stays).same role
  | @fails i c d k f client ends =>
    have ended := kept.ends client ends
    have out : (m.setClient i d).Kept (Function.update roles n .idle) := by
      refine ended.assign (fun L h ↦ by cases h) (by simp) (by simp) ?_ ?_
      · intro j e he running h
        exfalso
        rw [role] at h
        rcases h with h | h | h
        · cases h
          obtain ⟨-, rfl⟩ | ⟨hne, -⟩ := eq_or_client?_of_setClient client he
          · exact ends.child running
          · exact hne rfl
        · cases h
        · cases h
      · intro j e he down h
        rw [role] at h
        cases h
    exact out.leaveGate language (by rw [Function.update_self]; rfl)
  | registers client spoken phase child vacant =>
    exact (kept.registers role client spoken phase).leaveGate language
      (by rw [Function.update_self]; rfl)
  | displaces registered occupied =>
    have alone := kept.unregistered n language (by rw [role]; rfl)
    rw [registered] at alone
    cases alone
  | displacing => exact absurd role (kept.inPlace n)

end Manager.Kept

/-! ### Tasks -/

namespace ManagerTask

/-- What a task is about. -/
def role : ManagerTask → Role
  | obtaining language _ o => o.role language
  | shutdown i _ others => .stopping (some i) others
  | document .. | completion .. => .idle
  | starting .. => .misplaced

/-- What a task has come to is about. -/
def roleOf : Progress ManagerTask ManagerAnswer → Role
  | .running task => task.role
  | .finished _ => .idle

variable {m m' : Manager} {roles : Nat → Role} {n now : Nat} {language : String}

/-- A client that was obtained is used, and stays where it stands. -/
theorem serve_spec (a : Agent) (goal : Goal) (i : Nat) (m : Manager) :
    roleOf (serve a goal i m).1 = .idle ∧
      ((serve a goal i m).2 = m ∨ ∃ c d, m.client? i = some c ∧ Stays c d ∧
        (serve a goal i m).2 = m.setClient i d) := by
  unfold serve
  split
  · exact ⟨rfl, .inl rfl⟩
  · next c client =>
    cases goal with
    | client => exact ⟨rfl, .inl rfl⟩
    | document r =>
      have stays := stays_startDocument a r c
      simp only
      split <;> next hstart => rw [hstart] at stays; exact ⟨rfl, .inr ⟨c, _, client, stays, rfl⟩⟩
    | completion uri position =>
      have stays := stays_startCompletion a uri position c
      simp only
      split <;> next hstart => rw [hstart] at stays; exact ⟨rfl, .inr ⟨c, _, client, stays, rfl⟩⟩

/-- What follows a step of the way to a client. -/
theorem kept_follow {p : Progress Obtaining Obtaining.Outcome}
    (kept : m.Kept (Function.update roles n (Obtaining.roleOf language p))) (a : Agent)
    (goal : Goal) :
    (follow a language goal (p, m)).2.Kept
      (Function.update roles n (roleOf (follow a language goal (p, m)).1)) := by
  cases p with
  | running o => exact kept
  | finished answer =>
    cases answer with
    | error f => exact kept
    | ok i =>
      obtain ⟨hrole, hm | ⟨c, d, client, stays, hm⟩⟩ := serve_spec a goal i m
      · simp only [follow, hrole, hm]
        exact kept
      · simp only [follow, hrole, hm]
        exact kept.stays client stays

/-- The shutdown of a list of clients. -/
theorem kept_shutDownAll (now : Nat) {is : List Nat} (kept : m.Kept roles)
    (role : roles n = .stopping none is) :
    (shutDownAll (.operation n) now is m).2.Kept
      (Function.update roles n (roleOf (shutDownAll (.operation n) now is m).1)) := by
  induction is generalizing m roles with
  | nil =>
    refine kept.assign (fun L h ↦ by cases h) (by simp [shutDownAll, roleOf])
      (by simp [shutDownAll, roleOf]) ?_ ?_
    · intro j e _ _ h
      rw [role] at h
      rcases h with h | h | h <;> cases h
    · intro j e _ _ h
      rw [role] at h
      cases h
  | cons i others ih =>
    -- What is left to be shut down is watched as before, except for the first client.
    have skips (gone : ∀ c, m.client? i = some c →
        c.phase = .shuttingDown ∨ c.phase = .terminated) :
        m.Kept (Function.update roles n (.stopping none others)) := by
      refine kept.assign (fun L h ↦ by cases h) (by simp) (by simp) ?_ ?_
      · intro j e he running h
        rw [role] at h
        rcases h with h | h | h
        · cases h
        · cases h
        · rcases List.mem_cons.mp h with rfl | h
          · right
            rcases gone e he with down | gone
            · obtain ⟨k, hk⟩ := kept.stopping j e he down
              refine ⟨k, ?_, .inl hk⟩
              rintro rfl
              rw [role] at hk
              cases hk
            · exact absurd running (kept.ended j e he gone)
          · exact .inl (.inr h)
      · intro j e _ _ h
        rw [role] at h
        cases h
    simp only [shutDownAll]
    split
    · next hnone =>
      have next := ih (skips fun c hc ↦ by rw [hnone] at hc; cases hc)
        (by rw [Function.update_self])
      rw [Function.update_idem] at next
      exact next
    · next c client =>
      have spec := Shutdown.spec_start (.operation n) now c
      split
      · next k d hstart =>
        rw [hstart] at spec
        obtain ⟨spoken, phase, child⟩ := spec
        refine kept.shutsDown (fun _ _ h ↦ h) (fun _ _ h _ ↦ h) client spoken phase
          (fun L h ↦ by cases h) ?_ (fun L j h ↦ ?_) rfl ?_
        · rw [role]
          rfl
        · rw [role] at h
          cases h
        · intro j hj
          rw [role] at hj
          exact List.mem_cons.mp hj
      · next d hstart =>
        rw [hstart] at spec
        obtain ⟨rfl, gone⟩ := spec
        have skipped := skips fun c hc ↦ by
          rw [client] at hc
          cases hc
          exact gone
        have next := ih skipped (by rw [Function.update_self])
        rw [Function.update_idem] at next
        rw [Manager.setClient_self client]
        exact next

/-- All registered clients are to be shut down and are registered no more. -/
private theorem kept_clear (kept : m.Kept roles) (role : roles n = .idle) :
    ({ m with registry := .empty } : Manager).Kept
      (Function.update roles n (Role.stopping none (m.registry.entries.map (·.2)))) := by
  have taken : m.Kept
      (Function.update roles n (Role.stopping none (m.registry.entries.map (·.2)))) := by
    refine kept.assign (fun L h ↦ by cases h) (by simp) (by simp) ?_ ?_
    · rintro j e - - (h | h | h)
      · rw [role] at h
        cases h
      · rw [role] at h
        cases h
      · rw [role] at h
        cases h
    · intro j e _ _ h
      rw [role] at h
      cases h
  refine ⟨taken.held, fun _ _ _ ↦ rfl, taken.inPlace, ?_, taken.connecting, ?_, taken.stopping,
    taken.ended⟩
  · intro L j h
    cases h
  · intro j e he running
    right
    obtain h | h := taken.watched j e he running
    · right
      refine ⟨n, .inr ?_⟩
      rw [Function.update_self]
      exact Dictionary.mem_of_get? h
    · exact h

/-- The start of an operation on the client of a language. -/
private theorem kept_obtain (kept : m.Kept roles) (role : roles n = .idle)
    (refusal : Refusal) (spoken : Except Failure String) (goal : Goal) :
    (obtain (.operation n) now refusal spoken goal m).2.Kept
      (Function.update roles n
        (roleOf (obtain (.operation n) now refusal spoken goal m).1)) := by
  cases spoken with
  | error f =>
    simp only [obtain]
    exact kept.same role
  | ok language =>
    simp only [obtain]
    generalize hstart : Obtaining.start (.operation n) now refusal language m = next
    obtain ⟨p, m'⟩ := next
    have role : roles n = if false then .queued language else .idle := role
    have next := kept.seeks role (fun h ↦ by cases h) (Obtaining.seeks_of_seek hstart)
    exact kept_follow next (.operation n) goal

/-- The start of an operation, unless it starts a client that is not to be registered. -/
theorem kept_start (kept : m.Kept roles) (role : roles n = .idle) (refusal : Refusal)
    {r : ManagerRequest} (managed : ∀ language command, r ≠ .start language command) :
    (start (.operation n) now refusal r m).2.Kept
      (Function.update roles n (roleOf (start (.operation n) now refusal r m).1)) := by
  cases r with
  | opened language path text =>
    simp only [start]
    exact kept_obtain kept role refusal (m.route language path) _
  | changed language path text =>
    simp only [start]
    exact kept_obtain kept role refusal (m.route language path) _
  | saved language path text =>
    simp only [start]
    exact kept_obtain kept role refusal (m.route language path) _
  | completion language path position =>
    simp only [start]
    exact kept_obtain kept role refusal (m.route language path) _
  | client language =>
    simp only [start]
    exact kept_obtain kept role refusal (.ok (Language.normalize language)) _
  | shutdown =>
    have next := kept_shutDownAll now (kept_clear kept role) (by rw [Function.update_self])
    rw [Function.update_idem] at next
    exact next
  | stop i =>
    have taken : m.Kept (Function.update roles n (.stopping none [i])) := by
      refine kept.assign (fun L h ↦ by cases h) (by simp) (by simp) ?_ ?_
      · intro j e _ _ h
        rw [role] at h
        rcases h with h | h | h <;> cases h
      · intro j e _ _ h
        rw [role] at h
        cases h
    have next := kept_shutDownAll now taken (by rw [Function.update_self])
    rw [Function.update_idem] at next
    exact next
  | start language command => exact absurd rfl (managed language command)

/-- A step of an operation. -/
theorem kept_step? {task : ManagerTask} {p : Progress ManagerTask ManagerAnswer}
    (kept : m.Kept roles) (role : roles n = task.role) {refusal : Refusal}
    (step : task.step? (.operation n) now refusal m = some (p, m')) :
    m'.Kept (Function.update roles n (roleOf p)) := by
  cases task with
  | starting i k => exact absurd role (kept.inPlace n)
  | obtaining language goal o =>
    simp only [step?, Option.map_eq_some_iff, Prod.exists] at step
    obtain ⟨q, m'', hstep, h⟩ := step
    have next := kept.takes role (Obtaining.takes_of_step? hstep)
    have last := kept_follow next (.operation n) goal
    rw [h] at last
    exact last
  | document i call =>
    simp only [step?, Option.bind_eq_bind, Option.bind_eq_some_iff, Prod.exists] at step
    obtain ⟨c, client, q, d, hstep, h⟩ := step
    have stays := stays_of_stepNotice? hstep
    cases q <;> cases h <;> exact (kept.stays client stays).same role
  | completion i call =>
    simp only [step?, Option.bind_eq_bind, Option.bind_eq_some_iff, Prod.exists] at step
    obtain ⟨c, client, q, d, hstep, h⟩ := step
    have stays := stays_of_stepCompletion? hstep
    cases q <;> cases h <;> exact (kept.stays client stays).same role
  | shutdown i k others =>
    simp only [step?, Option.bind_eq_bind, Option.bind_eq_some_iff, Prod.exists] at step
    obtain ⟨c, client, q, d, hstep, h⟩ := step
    have spec := Shutdown.spec_of_step? hstep
    cases q with
    | running k' =>
      cases h
      exact (kept.stays client spec).same role
    | finished _ =>
      have ended := kept.ends client spec
      have rest : (m.setClient i d).Kept (Function.update roles n (.stopping none others)) := by
        refine ended.assign (fun L h ↦ by cases h) (by simp) (by simp) ?_ ?_
        · intro j e he running h
          rw [role] at h
          rcases h with h | h | h
          · cases h
          · cases h
            obtain ⟨-, rfl⟩ | ⟨hne, -⟩ := Manager.eq_or_client?_of_setClient client he
            · exact absurd running spec.child
            · exact absurd rfl hne
          · exact .inl (.inr h)
        · intro j e he down h
          rw [role] at h
          cases h
          obtain ⟨-, rfl⟩ | ⟨hne, -⟩ := Manager.eq_or_client?_of_setClient client he
          · rw [spec.phase] at down
            cases down
          · exact absurd rfl hne
      have next := kept_shutDownAll now rest (by rw [Function.update_self])
      rw [Function.update_idem] at next
      simp only [Option.pure_def, Option.some.injEq] at h
      rw [h] at next
      exact next

end ManagerTask

end LanguageHub
