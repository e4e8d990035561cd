import LanguageHub.Proofs.Client.Failures
import LanguageHub.Proofs.Manager.Changes
import LanguageHub.Proofs.Manager.Requests

/-!
# How operations of a manager fail

An operation fails as the start of a client does only on the way to the client, or for want of a
language before it: for want of a command, because the command cannot be run, or because the
handshake failed (`ManagerTask.fails_of_start`, `ManagerTask.fails_of_step?`). What fails later
fails in another way.
-/

namespace LanguageHub

/-- The failure that an operation has ended with, if it has failed. -/
def ManagerAnswer.failure? : ManagerAnswer → Option Failure
  | done (.error f) | items (.error f) | client (.error f) => some f
  | done (.ok _) | items (.ok _) | client (.ok _) => none

variable {a : Agent} {now : Nat} {refusal : Refusal} {language : String} {hasGate : Bool}
  {m n : Manager} {f : Failure}

/-! ### The way to a client -/

namespace Obtaining

variable {o : Obtaining}

/-- Why no client of a language is started, in front of the gate or behind it. -/
inductive Refused (refusal : Refusal) (language : String) (m : Manager) :
    Bool → Failure → Prop where
  | unsupported {hasGate : Bool} (unsupported : m.commands.supports language = false) :
      Refused refusal language m hasGate (.unknownLanguage language)
  | unlaunched {program reason : String}
      (refused : refusal (m.commands.commandFor language) = some reason) :
      Refused refusal language m true (.launch program reason)

/-- The start of a client is refused for one of these reasons. -/
theorem refused_of_launch (h : launch a refusal language m = (.finished (.error f), n)) :
    Refused refusal language m true f := by
  unfold launch at h
  simp only at h
  split at h
  · next unknown =>
    cases h
    refine .unsupported ?_
    rw [Language.CommandTable.supports, List.head?_eq_none_iff.mp unknown]
    rfl
  · next refused =>
    cases h
    exact .unlaunched refused
  · split at h
    · cases h
    · next c _ =>
      -- The handshake goes on, whatever comes of its first request.
      obtain ⟨-, k, running⟩ := Connecting.spec_start a (Connecting.greeting 0
        ((m.launch language (m.commands.commandFor language) m.limit).2.uriOf
          (m.launch language (m.commands.commandFor language) m.limit).2.root)) c
      split at h
      · cases h
      all_goals
        next hstart =>
        rw [hstart] at running
        cases running

/-- A way without a registered client is refused for one of these reasons. -/
theorem refused_of_goOn (h : goOn a refusal language hasGate m = (.finished (.error f), n)) :
    Refused refusal language m hasGate f := by
  unfold goOn at h
  split at h
  · next behind =>
    rw [behind]
    exact refused_of_launch h
  · split at h
    · cases h
    · next unsupported =>
      cases h
      exact .unsupported (Bool.eq_false_iff.mpr unsupported)

/-- A look for a registered client fails for one of these reasons. -/
theorem refused_of_seek
    (h : seek a now refusal language hasGate m = (.finished (.error f), n)) :
    Refused refusal language m hasGate f := by
  have same {k : Manager} (commands : k.commands = m.commands)
      (refused : Refused refusal language k hasGate f) : Refused refusal language m hasGate f := by
    cases refused with
    | unsupported lacks => exact .unsupported (commands ▸ lacks)
    | unlaunched told => exact .unlaunched (commands ▸ told)
  unfold seek at h
  split at h
  · exact refused_of_goOn h
  · next i _ =>
    split at h
    · exact refused_of_goOn h
    · split at h
      · cases h
      · simp only at h
        split at h
        · cases h
        · next d _ =>
          have commands :
              ({ m with registry := m.registry.erase language }.setClient i d).commands =
                m.commands := rfl
          exact same commands (refused_of_goOn h)

/-- A step of a way fails for one of these reasons or because a handshake has failed. -/
theorem fails_of_step? (step : o.step? a now refusal language m = some (.finished (.error f), n)) :
    ((o = .queued ∨ ∃ i k, o = .evicting true i k) ∧ Refused refusal language m true f) ∨
    ((∃ i k, o = .evicting false i k) ∧ Refused refusal language m false f) ∨
    ∃ i k c d, o = .connecting i k ∧ m.client? i = some c ∧
      k.step? a now c = some (.finished (.error f), d) ∧
      n = (m.setClient i d).leaveGate language a := by
  cases o with
  | queued =>
    simp only [step?] at step
    split at step
    · exact .inl ⟨.inl rfl, refused_of_seek (Option.some.inj step)⟩
    · cases step
  | evicting hasGate i k =>
    simp only [step?, Option.bind_eq_bind, Option.bind_eq_some_iff, Prod.exists] at step
    obtain ⟨c, client, q, d, hstep, h⟩ := step
    cases q with
    | running => cases h
    | finished =>
      have refused : Refused refusal language m hasGate f := by
        cases refused_of_goOn (Option.some.inj h) with
        | unsupported lacks => exact .unsupported lacks
        | unlaunched told => exact .unlaunched told
      cases hasGate with
      | true => exact .inl ⟨.inr ⟨i, k, rfl⟩, refused⟩
      | false => exact .inr (.inl ⟨⟨i, k, rfl⟩, refused⟩)
  | connecting i k =>
    simp only [step?, Option.bind_eq_bind, Option.bind_eq_some_iff, Prod.exists] at step
    obtain ⟨c, client, q, d, hstep, h⟩ := step
    rcases q with _ | (_ | _)
    · cases h
    · cases h
      exact .inr (.inr ⟨i, k, c, d, rfl, client, hstep, rfl⟩)
    · have h := Option.some.inj h
      unfold publish at h
      simp only at h
      split at h
      · cases h
      · split at h
        · cases h
        · split at h <;> cases h
  | displacing i j k =>
    simp only [step?, Option.bind_eq_bind, Option.bind_eq_some_iff, Prod.exists] at step
    obtain ⟨c, client, q, d, hstep, h⟩ := step
    cases q <;> cases h

/-- The handshake of a client that is started. -/
private theorem plain_of_launch {i : Nat} {k : Connecting}
    (h : launch a refusal language m = (.running (.connecting i k), n)) : k.Plain := by
  unfold launch at h
  simp only at h
  split at h
  · cases h
  · cases h
  · split at h
    · cases h
    · split at h
      · next hstart =>
        cases h
        exact Connecting.plain_start hstart
      · cases h
      · cases h

/-- The handshake on a way without a registered client. -/
private theorem plain_of_goOn {i : Nat} {k : Connecting}
    (h : goOn a refusal language hasGate m = (.running (.connecting i k), n)) : k.Plain := by
  unfold goOn at h
  split at h
  · exact plain_of_launch h
  · split at h <;> cases h

/-- The handshake after a look for a registered client. -/
theorem plain_of_seek {i : Nat} {k : Connecting}
    (h : seek a now refusal language hasGate m = (.running (.connecting i k), n)) :
    k.Plain := by
  unfold seek at h
  split at h
  · exact plain_of_goOn h
  · split at h
    · exact plain_of_goOn h
    · split at h
      · cases h
      · simp only at h
        split at h
        · cases h
        · exact plain_of_goOn h

/-- The handshake after a step of a way. -/
theorem plain_of_step? {i : Nat} {k : Connecting}
    (plain : ∀ i k, o = .connecting i k → k.Plain)
    (step : o.step? a now refusal language m = some (.running (.connecting i k), n)) :
    k.Plain := by
  cases o with
  | queued =>
    simp only [step?] at step
    split at step
    · exact plain_of_seek (Option.some.inj step)
    · cases step
  | evicting hasGate j s =>
    simp only [step?, Option.bind_eq_bind, Option.bind_eq_some_iff, Prod.exists] at step
    obtain ⟨c, client, q, d, -, h⟩ := step
    cases q with
    | running => cases h
    | finished => exact plain_of_goOn (Option.some.inj h)
  | connecting j k' =>
    simp only [step?, Option.bind_eq_bind, Option.bind_eq_some_iff, Prod.exists] at step
    obtain ⟨c, client, q, d, hstep, h⟩ := step
    rcases q with _ | (_ | _)
    · cases h
      exact (plain _ k' rfl).step hstep
    · cases h
    · have h := Option.some.inj h
      unfold publish at h
      simp only at h
      split at h
      · cases h
      · split at h
        · cases h
        · split at h <;> cases h
  | displacing i j k =>
    simp only [step?, Option.bind_eq_bind, Option.bind_eq_some_iff, Prod.exists] at step
    obtain ⟨c, client, q, d, -, h⟩ := step
    cases q <;> cases h

end Obtaining

/-! ### Operations -/

namespace ManagerTask

variable {answer : ManagerAnswer}

/-- The failure of an operation that was refused. -/
theorem failure?_refuse (goal : Goal) (f : Failure) : (refuse goal f).failure? = some f := by
  cases goal <;> rfl

/-- The use of a client that fails when it begins does so because of the transport. -/
theorem transport_of_serve {goal : Goal} {i : Nat}
    (h : serve a goal i m = (.finished answer, n)) (failed : answer.failure? = some f) :
    ∃ reason, f = .transport reason := by
  unfold serve at h
  split at h
  · cases h
    rw [failure?_refuse] at failed
    cases failed
    exact ⟨_, rfl⟩
  · next c client =>
    cases goal with
    | client =>
      cases h
      cases failed
    | document r =>
      simp only at h
      split at h
      · cases h
      · next outcome d hstart =>
        cases h
        cases outcome with
        | ok => cases failed
        | error g =>
          cases failed
          exact Client.transport_of_startDocument hstart
    | completion uri position =>
      simp only at h
      split at h
      · cases h
      · next outcome d hstart =>
        cases h
        obtain ⟨reason, rfl⟩ := Client.transport_of_startCompletion hstart
        cases failed
        exact ⟨reason, rfl⟩

/-- What follows a way fails as the start of a client does only if the way has failed. -/
private theorem eq_of_follow {goal : Goal} {q : Progress Obtaining Obtaining.Outcome}
    (h : follow a language goal (q, m) = (.finished answer, n))
    (failed : answer.failure? = some f) (start : f.ofStart = true) :
    q = .finished (.error f) ∧ n = m := by
  rcases q with _ | (g | i)
  · cases h
  · cases h
    rw [failure?_refuse] at failed
    cases failed
    exact ⟨rfl, rfl⟩
  · obtain ⟨reason, rfl⟩ := transport_of_serve h failed
    cases start

/-- The shutdown of a list of clients does not fail. -/
private theorem failure?_shutDownAll {is : List Nat}
    (h : shutDownAll a now is m = (.finished answer, n)) : answer.failure? = none := by
  induction is generalizing m with
  | nil =>
    cases h
    rfl
  | cons i others ih =>
    unfold shutDownAll at h
    split at h
    · exact ih h
    · split at h
      · cases h
      · exact ih h

/-- An operation that fails with a step, as the start of a client does, is on the way to the client,
and the way has failed. -/
theorem fails_of_step? {task : ManagerTask} (managed : ∀ i k, task ≠ .starting i k)
    (plain : ∀ i c, m.client? i = some c → c.connection.table.Plain)
    (step : task.step? a now refusal m = some (.finished answer, n))
    (failed : answer.failure? = some f) (start : f.ofStart = true) :
    ∃ L goal o, task = .obtaining L goal o ∧
      o.step? a now refusal L m = some (.finished (.error f), n) := by
  cases task with
  | obtaining L goal o =>
    simp only [step?, Option.map_eq_some_iff, Prod.exists] at step
    obtain ⟨q, k, hway, h⟩ := step
    obtain ⟨rfl, rfl⟩ := eq_of_follow h failed start
    exact ⟨L, goal, o, rfl, hway⟩
  | document i call =>
    simp only [step?, Option.bind_eq_bind, Option.bind_eq_some_iff, Prod.exists] at step
    obtain ⟨c, client, q, d, hstep, h⟩ := step
    rcases q with _ | (g | _)
    · cases h
    · cases h
      cases failed
      obtain ⟨reason, rfl⟩ := Client.transport_of_stepNotice? hstep
      cases start
    · cases h
      cases failed
  | completion i call =>
    simp only [step?, Option.bind_eq_bind, Option.bind_eq_some_iff, Prod.exists] at step
    obtain ⟨c, client, q, d, hstep, h⟩ := step
    rcases q with _ | (g | _)
    · cases h
    · cases h
      cases failed
      rw [Client.ofStart_of_stepCompletion? (plain i c client) hstep] at start
      cases start
    · cases h
      cases failed
  | shutdown i k others =>
    simp only [step?, Option.bind_eq_bind, Option.bind_eq_some_iff, Prod.exists] at step
    obtain ⟨c, client, q, d, hstep, h⟩ := step
    cases q with
    | running => cases h
    | finished =>
      rw [failure?_shutDownAll (Option.some.inj h)] at failed
      cases failed
  | starting i k => exact absurd rfl (managed i k)

/-! ### Handshakes of tasks -/

/-- A handshake that a task is at has failed as a handshake, if it has failed. -/
def Plain (task : ManagerTask) : Prop :=
  ∀ language goal i k, task = .obtaining language goal (.connecting i k) → k.Plain

variable {task task' : ManagerTask}

/-- What follows a way to a client. -/
private theorem plain_of_follow {goal : Goal} {q : Progress Obtaining Obtaining.Outcome}
    (plain : ∀ i k, q = .running (.connecting i k) → k.Plain)
    (h : follow a language goal (q, m) = (.running task, n)) : task.Plain := by
  rintro L goal' i k rfl
  rcases q with o | (_ | j)
  · cases h
    exact plain i k rfl
  · cases h
  · unfold follow serve at h
    simp only at h
    split at h
    · cases h
    · cases goal with
      | client => cases h
      | document r =>
        simp only at h
        split at h <;> cases h
      | completion uri position =>
        simp only at h
        split at h <;> cases h

/-- The shutdown of a list of clients. -/
private theorem plain_of_shutDownAll {is : List Nat}
    (h : shutDownAll a now is m = (.running task, n)) : task.Plain := by
  induction is generalizing m with
  | nil => cases h
  | cons i others ih =>
    unfold shutDownAll at h
    split at h
    · exact ih h
    · split at h
      · cases h
        rintro _ _ _ _ ⟨⟩
      · exact ih h

/-- The start of an operation. -/
theorem plain_of_start {r : ManagerRequest} (h : start a now refusal r m = (.running task, n)) :
    task.Plain := by
  have obtains {spoken : Except Failure String} {goal : Goal}
      (h : obtain a now refusal spoken goal m = (.running task, n)) : task.Plain := by
    cases spoken with
    | error => cases h
    | ok language =>
      refine plain_of_follow (fun i k same ↦ ?_) h
      exact Obtaining.plain_of_seek (Prod.ext same rfl)
  cases r with
  | opened | changed | saved | completion | client =>
    simp only [start] at h
    exact obtains h
  | shutdown => exact plain_of_shutDownAll h
  | stop i => exact plain_of_shutDownAll h
  | start language command =>
    rintro L goal i k rfl
    simp only [start, startUnregistered] at h
    split at h
    · cases h
    · cases h
    · split at h
      · cases h
      · split at h <;> cases h

/-- A step of an operation. -/
theorem Plain.step (plain : task.Plain)
    (step : task.step? a now refusal m = some (.running task', n)) : task'.Plain := by
  cases task with
  | obtaining L goal o =>
    simp only [step?, Option.map_eq_some_iff, Prod.exists] at step
    obtain ⟨q, k, hway, h⟩ := step
    refine plain_of_follow (fun i c same ↦ ?_) h
    rw [same] at hway
    exact Obtaining.plain_of_step? (fun j c hj ↦ plain L goal j c (by rw [hj])) hway
  | shutdown i k others =>
    simp only [step?, Option.bind_eq_bind, Option.bind_eq_some_iff, Prod.exists] at step
    obtain ⟨c, client, q, d, -, h⟩ := step
    cases q with
    | running =>
      cases h
      rintro _ _ _ _ ⟨⟩
    | finished => exact plain_of_shutDownAll (Option.some.inj h)
  | document | completion | starting =>
    simp only [step?, Option.bind_eq_bind, Option.bind_eq_some_iff, Prod.exists] at step
    obtain ⟨c, client, q, d, -, h⟩ := step
    cases q <;> cases h
    rintro _ _ _ _ ⟨⟩

end ManagerTask

end LanguageHub
