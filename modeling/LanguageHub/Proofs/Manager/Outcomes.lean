import LanguageHub.Proofs.Client.Failures
import LanguageHub.Proofs.Connection.Outcomes
import LanguageHub.Proofs.Manager.Changes
import LanguageHub.Proofs.Manager.Failures

/-!
# What operations come to

An operation stays of its kind as long as it goes on. With any step but one of a completion request
that was sent it fails, if at all, because no server is reached (`ManagerTask.proceeds_start`,
`ManagerTask.proceeds_step?`), and a shutdown does not fail.

A run of a manager reports which operations begin, in which calls they ask servers for completions,
and on which bodies the tasks that read act. The answer to an operation is the first response to its
call, and later reports do not change it.
-/

namespace LanguageHub

/-- Whether a failure says that no server is reached: there is none for the language, it cannot be
started, or the streams to it are closed or broken. -/
def Failure.isUnreached : Failure → Bool
  | launch .. | handshake _ | unknownLanguage _ | transport _ => true
  | protocol _ | unsupportedMethod _ | rpc .. | timeout _ | io _ => false

/-! ### Kinds of operations -/

/-- What an operation is to do. -/
inductive OperationKind where
  | document
  | completion
  /-- Give a client. -/
  | client
  | shutdown
  deriving DecidableEq, Repr

/-- What an operation is to do. -/
def ManagerRequest.kind : ManagerRequest → OperationKind
  | opened .. | changed .. | saved .. => .document
  | completion .. => .completion
  | client _ | start .. => .client
  | shutdown | stop _ => .shutdown

/-- What a client is obtained for. -/
def Goal.kind : Goal → OperationKind
  | document _ => .document
  | completion .. => .completion
  | client => .client

/-- What an operation that is going on is to do. -/
def ManagerTask.kind : ManagerTask → OperationKind
  | obtaining _ goal _ => goal.kind
  | document .. => .document
  | completion .. => .completion
  | shutdown .. => .shutdown
  | starting .. => .client

/-- Nobody obtains a client to shut something down. -/
theorem Goal.kind_ne_shutdown (goal : Goal) : goal.kind ≠ .shutdown := by
  cases goal <;> exact OperationKind.noConfusion

variable {a : Agent} {now : Nat} {refusal : Refusal} {language : String} {m n : Manager}
  {f : Failure}

/-! ### The way to a client -/

namespace Obtaining

/-- Whoever is refused reaches no server. -/
private theorem Refused.isUnreached {hasGate : Bool}
    (refused : Refused refusal language m hasGate f) : f.isUnreached = true := by
  cases refused <;> rfl

/-- A way that fails when it begins reaches no server. -/
theorem isUnreached_of_start (h : start a now refusal language m = (.finished (.error f), n)) :
    f.isUnreached = true := (refused_of_seek h).isUnreached

/-- A way that fails with a step reaches no server. -/
theorem isUnreached_of_step? {o : Obtaining} (plain : ∀ i k, o = .connecting i k → k.Plain)
    (step : o.step? a now refusal language m = some (.finished (.error f), n)) :
    f.isUnreached = true := by
  obtain ⟨-, refused⟩ | ⟨-, refused⟩ | ⟨i, k, c, d, rfl, -, hstep, -⟩ := fails_of_step? step
  · exact refused.isUnreached
  · exact refused.isUnreached
  · obtain ⟨⟨reason, rfl⟩, -⟩ := (plain i k rfl).step hstep
    rfl

end Obtaining

/-! ### Operations -/

namespace ManagerTask

/-- What an operation of some kind has come to with a step that is none of a completion request that
was sent. -/
inductive Proceeds (kind : OperationKind) (m : Manager) :
    Progress ManagerTask ManagerAnswer → Prop where
  | goesOn {task : ManagerTask} (own : task.kind = kind)
      (unsent : ∀ i call, task ≠ .completion i call)
      (plain : ∀ i k, task = .starting i k → k.Plain) : Proceeds kind m (.running task)
  | asks {i : Nat} {call : Call} {c : Client} (own : kind = .completion)
      (client : m.client? i = some c)
      (unanswered : c.connection.table.Agrees call.id call.ticket none)
      (limited : call.limit = c.limit) : Proceeds kind m (.running (.completion i call))
  | succeeds {answer : ManagerAnswer} (succeeded : answer.failure? = none) :
      Proceeds kind m (.finished answer)
  | fails {answer : ManagerAnswer} {f : Failure} (failed : answer.failure? = some f)
      (fallible : kind ≠ .shutdown) (unreached : f.isUnreached = true) :
      Proceeds kind m (.finished answer)

/-- An operation that has ended has succeeded, or it has reached no server. -/
theorem Proceeds.of_finished {kind : OperationKind} {answer : ManagerAnswer}
    (fallible : kind ≠ .shutdown)
    (unreached : ∀ f, answer.failure? = some f → f.isUnreached = true) :
    Proceeds kind m (.finished answer) := by
  cases failed : answer.failure? with
  | none => exact .succeeds failed
  | some f => exact .fails failed fallible (unreached f failed)

/-- An operation that is refused for want of a server. -/
private theorem proceeds_refuse (goal : Goal) (m : Manager) (unreached : f.isUnreached = true) :
    Proceeds goal.kind m (.finished (refuse goal f)) :=
  .fails (failure?_refuse goal f) goal.kind_ne_shutdown unreached

/-- The use of a client. -/
private theorem proceeds_serve {goal : Goal} {i : Nat} {p : Progress ManagerTask ManagerAnswer}
    (h : serve a goal i m = (p, n)) : Proceeds goal.kind n p := by
  cases p with
  | finished answer =>
    refine .of_finished goal.kind_ne_shutdown fun f failed ↦ ?_
    obtain ⟨reason, rfl⟩ := transport_of_serve h failed
    rfl
  | running task =>
    unfold serve at h
    split at h
    · cases h
    · next c client =>
      cases goal with
      | client => cases h
      | document r =>
        simp only at h
        split at h <;> cases h
        exact .goesOn rfl (fun _ _ same ↦ by cases same) fun _ _ same ↦ by cases same
      | completion uri position =>
        simp only at h
        split at h
        · next call d hstart =>
          cases h
          obtain ⟨unanswered, limited⟩ := Client.agrees_startCompletion hstart
          have found : (m.setClient i d).client? i = some d :=
            (Manager.client?_setClient_of_some client d i).trans (if_pos rfl)
          exact .asks rfl found unanswered limited
        · cases h

/-- What follows a way to a client. -/
private theorem proceeds_follow {goal : Goal} {q : Progress Obtaining Obtaining.Outcome}
    {p : Progress ManagerTask ManagerAnswer}
    (unreached : ∀ f, q = .finished (.error f) → f.isUnreached = true)
    (h : follow a language goal (q, m) = (p, n)) : Proceeds goal.kind n p := by
  rcases q with o | (f | i)
  · cases h
    exact .goesOn rfl (fun _ _ same ↦ by cases same) fun _ _ same ↦ by cases same
  · cases h
    exact proceeds_refuse goal m (unreached f rfl)
  · exact proceeds_serve h

/-- The shutdown of a list of clients. -/
private theorem proceeds_shutDownAll {is : List Nat} {p : Progress ManagerTask ManagerAnswer}
    (h : shutDownAll a now is m = (p, n)) : Proceeds .shutdown n p := by
  induction is generalizing m with
  | nil =>
    cases h
    exact .succeeds rfl
  | cons i others ih =>
    unfold shutDownAll at h
    split at h
    · exact ih h
    · split at h
      · cases h
        exact .goesOn rfl (fun _ _ same ↦ by cases same) fun _ _ same ↦ by cases same
      · exact ih h

/-- The start of a client that is not registered. -/
private theorem proceeds_startUnregistered {command : List String}
    {p : Progress ManagerTask ManagerAnswer}
    (h : startUnregistered a refusal language command m = (p, n)) : Proceeds .client n p := by
  unfold startUnregistered at h
  split at h
  · cases h
    exact .fails rfl OperationKind.noConfusion rfl
  · cases h
    exact .fails rfl OperationKind.noConfusion rfl
  · simp only at h
    split at h
    · cases h
      exact .succeeds rfl
    · next c _ =>
      obtain ⟨-, k, running⟩ := Connecting.spec_start a (Connecting.greeting 0
        ((m.launch language command none).2.uriOf (m.launch language command none).2.directory)) c
      split at h
      · next hstart =>
        cases h
        refine .goesOn rfl (fun _ _ same ↦ by cases same) fun _ _ same ↦ ?_
        cases same
        exact Connecting.plain_start hstart
      · next hstart =>
        rw [hstart] at running
        cases running

/-- An operation that begins. -/
theorem proceeds_start {r : ManagerRequest} {p : Progress ManagerTask ManagerAnswer}
    (h : start a now refusal r m = (p, n)) : Proceeds r.kind n p := by
  have obtains {L : String} {goal : Goal}
      (h : obtain a now refusal (.ok L) goal m = (p, n)) : Proceeds goal.kind n p :=
    proceeds_follow (fun _ same ↦ Obtaining.isUnreached_of_start (Prod.ext same rfl)) h
  have routed {language path : String} {goal : Goal}
      (h : obtain a now refusal (m.route language path) goal m = (p, n)) :
      Proceeds goal.kind n p := by
    cases hroute : m.route language path with
    | ok L =>
      rw [hroute] at h
      exact obtains h
    | error g =>
      rw [hroute] at h
      cases h
      unfold Manager.route at hroute
      split at hroute <;> cases hroute
      exact proceeds_refuse goal m rfl
  cases r with
  | opened | changed | saved | completion =>
    simp only [start] at h
    exact routed h
  | client spelling =>
    simp only [start] at h
    exact obtains h
  | shutdown => exact proceeds_shutDownAll h
  | stop i => exact proceeds_shutDownAll h
  | start language command => exact proceeds_startUnregistered h

/-- An operation that goes on. -/
theorem proceeds_step? {task : ManagerTask} {p : Progress ManagerTask ManagerAnswer}
    (plain : task.Plain) (plain' : ∀ i k, task = .starting i k → k.Plain)
    (unsent : ∀ i call, task ≠ .completion i call)
    (step : task.step? a now refusal m = some (p, n)) : Proceeds task.kind n p := by
  cases task with
  | obtaining L goal o =>
    simp only [step?, Option.map_eq_some_iff, Prod.exists] at step
    obtain ⟨q, k, hway, h⟩ := step
    refine proceeds_follow (fun f same ↦ ?_) h
    rw [same] at hway
    exact Obtaining.isUnreached_of_step? (fun i c at_ ↦ plain L goal i c (by rw [at_])) hway
  | document i call =>
    simp only [step?, Option.bind_eq_bind, Option.bind_eq_some_iff, Prod.exists] at step
    obtain ⟨c, client, q, d, hstep, h⟩ := step
    rcases q with _ | (g | _)
    · cases h
      exact .goesOn rfl (fun _ _ same ↦ by cases same) fun _ _ same ↦ by cases same
    · cases h
      obtain ⟨reason, rfl⟩ := Client.transport_of_stepNotice? hstep
      exact .fails rfl OperationKind.noConfusion rfl
    · cases h
      exact .succeeds rfl
  | completion i call => exact absurd rfl (unsent i call)
  | shutdown i k others =>
    simp only [step?, Option.bind_eq_bind, Option.bind_eq_some_iff, Prod.exists] at step
    obtain ⟨c, client, q, d, hstep, h⟩ := step
    cases q with
    | running =>
      cases h
      exact .goesOn rfl (fun _ _ same ↦ by cases same) fun _ _ same ↦ by cases same
    | finished => exact proceeds_shutDownAll (Option.some.inj h)
  | starting i k =>
    simp only [step?, Option.bind_eq_bind, Option.bind_eq_some_iff, Prod.exists] at step
    obtain ⟨c, client, q, d, hstep, h⟩ := step
    have next := (plain' i k rfl).step hstep
    rcases q with k' | (g | _)
    · cases h
      refine .goesOn rfl (fun _ _ same ↦ by cases same) fun _ _ same ↦ ?_
      cases same
      exact next
    · cases h
      obtain ⟨⟨reason, rfl⟩, -⟩ := next
      exact .fails rfl OperationKind.noConfusion rfl
    · cases h
      exact .succeeds rfl

end ManagerTask

/-! ## Reports of runs -/

open ServerMessage

/-- Something that a run of a manager shows of its operations and its servers. -/
inductive Report where
  | begun (task : Nat) (request : ManagerRequest)
  /-- The operation has begun to ask the server of a client, in a call with this id. -/
  | asked (task client : Nat) (id : Int)
  /-- The task that reads of a client has acted on a body. -/
  | heard (client : Nat) (body : String)
  deriving DecidableEq, Repr

/-- What a run has shown, in order. -/
abbrev Reports := List Report

/-- The body that the task that reads of a client has acted on. -/
def Report.body? (i : Nat) : Report → Option String
  | heard j body => if j = i then some body else none
  | begun .. | asked .. => none

/-- A report of what an operation does. -/
def Report.IsOf (n : Nat) : Report → Prop
  | begun m _ | asked m .. => m = n
  | heard .. => False

namespace Reports

/-- The bodies that the task that reads of a client has acted on. -/
def bodies (reports : Reports) (i : Nat) : List String := reports.filterMap (Report.body? i)

/-- The call of an operation: the client, the id, and what was shown after the call had begun. -/
def call? (n : Nat) : Reports → Option (Nat × Int × Reports)
  | [] => none
  | .asked m i id :: rest => if m = n then some (i, id, rest) else call? n rest
  | .begun .. :: rest | .heard .. :: rest => call? n rest

/-- The outcome that the first response to the call of an operation carries. -/
def answer? (reports : Reports) (n : Nat) : Option Outcome :=
  (call? n reports).bind fun call ↦ firstAnswer? call.2.1 (bodies call.2.2 call.1)

variable {reports : Reports} {n i : Nat} {id : Int}

@[simp]
theorem bodies_append (reports more : Reports) (i : Nat) :
    bodies (reports ++ more) i = bodies reports i ++ bodies more i :=
  List.filterMap_append

/-- A call that has begun stays the same. -/
theorem call?_append_of_some {rest : Reports} (called : call? n reports = some (i, id, rest))
    (more : Reports) : call? n (reports ++ more) = some (i, id, rest ++ more) := by
  induction reports with
  | nil => cases called
  | cons report reports ih =>
    cases report with
    | begun | heard =>
      simp only [call?, List.cons_append] at called ⊢
      exact ih called
    | asked m j id' =>
      simp only [call?, List.cons_append] at called ⊢
      split
      · next own =>
        rw [if_pos own] at called
        cases called
        rfl
      · next other =>
        rw [if_neg other] at called
        exact ih called

/-- A call that has not begun may begin later. -/
theorem call?_append_of_none (uncalled : call? n reports = none) (more : Reports) :
    call? n (reports ++ more) = call? n more := by
  induction reports with
  | nil => rfl
  | cons report reports ih =>
    cases report with
    | begun | heard =>
      simp only [call?, List.cons_append] at uncalled ⊢
      exact ih uncalled
    | asked m j id' =>
      simp only [call?, List.cons_append] at uncalled ⊢
      split
      · next own =>
        rw [if_pos own] at uncalled
        cases uncalled
      · next other =>
        rw [if_neg other] at uncalled
        exact ih uncalled

/-- An answer stays the same once it is there. -/
theorem answer?_append_of_some {outcome : Outcome}
    (answered : answer? reports n = some outcome) (more : Reports) :
    answer? (reports ++ more) n = some outcome := by
  obtain ⟨⟨i, id, rest⟩, called, answered⟩ := Option.bind_eq_some_iff.mp answered
  rw [answer?, call?_append_of_some called, Option.bind_some, bodies_append,
    firstAnswer?_append, answered, Option.some_or]

/-! ### What a step shows -/

/-- An operation acts on no body. -/
theorem bodies_of_isOf {shown : Reports} (own : ∀ x ∈ shown, x.IsOf n) (i : Nat) :
    bodies shown i = [] := by
  refine List.filterMap_eq_nil_iff.mpr fun x mem ↦ ?_
  cases x with
  | begun | asked => rfl
  | heard j body => exact (own _ mem).elim

/-- What an operation does is no call of another one. -/
theorem call?_of_isOf {shown : Reports} {k : Nat} (own : ∀ x ∈ shown, x.IsOf n)
    (other : k ≠ n) : call? k shown = none := by
  induction shown with
  | nil => rfl
  | cons x shown ih =>
    obtain ⟨first, others⟩ := List.forall_mem_cons.mp own
    cases x with
    | begun => exact ih others
    | asked m i id =>
      have same : m = n := first
      rw [call?, if_neg (same ▸ Ne.symm other), ih others]
    | heard => exact first.elim

/-- The begin of an operation is no call. -/
theorem call?_of_begun {shown : Reports} (only : ∀ x ∈ shown, ∃ r, x = .begun n r) :
    call? n shown = none := by
  induction shown with
  | nil => rfl
  | cons x shown ih =>
    obtain ⟨⟨r, rfl⟩, others⟩ := List.forall_mem_cons.mp only
    exact ih others

/-- What the task that reads of one client acts on. -/
theorem bodies_heard (body? : Option String) (i j : Nat) :
    bodies (body?.toList.map (.heard i)) j = if i = j then body?.toList else [] := by
  cases body? with
  | none => simp [bodies]
  | some body => by_cases same : i = j <;> simp [bodies, Report.body?, same]

/-- What is acted on is no call. -/
theorem call?_heard (body? : Option String) (i n : Nat) :
    call? n (body?.toList.map (.heard i)) = none := by
  cases body? <;> rfl

end Reports

namespace ManagerSession

variable {s₀ s t : ManagerSession} {reports shown : Reports}

/-- The body that the next step of the task that reads of a client acts on. -/
def body? (s : ManagerSession) (i : Nat) : Option String :=
  (s.manager.client? i).bind (·.connection.body?)

/-- The call that an operation has begun with a step. -/
def asks (s t : ManagerSession) (n : Nat) : Reports :=
  match s.tasks.state? n, t.tasks.state? n with
  | some (.completion ..), _ => []
  | _, some (.completion i call) => [.asked n i call.id]
  | _, _ => []

/-- With a step an operation begins one call at most. -/
theorem asks_cases (s t : ManagerSession) (n : Nat) :
    s.asks t n = [] ∨ ∃ i id, s.asks t n = [.asked n i id] := by
  unfold asks
  split
  · exact .inl rfl
  · exact .inr ⟨_, _, rfl⟩
  · exact .inl rfl

/-- What may happen next, with what it shows. -/
inductive Tells (s : ManagerSession) : Reports → ManagerSession → Prop where
  | start (refusal : Refusal) (n : Nat) (r : ManagerRequest) (fresh : n ∉ s.numbers)
      (admitted : s.Admits r) :
      Tells s (.begun n r :: s.asks (s.start refusal n r) n) (s.start refusal n r)
  | advance {t : ManagerSession} (refusal : Refusal) (n : Nat)
      (step : s.advance? refusal n = some t) : Tells s (s.asks t n) t
  | read {t : ManagerSession} (i : Nat) (step : s.advanceReading? i = some t) :
      Tells s ((s.body? i).toList.map (.heard i)) t
  | event (e : Event) : Tells s [] (s.happen e)

/-- What can come of a session, with what was shown. -/
inductive Telling (s₀ : ManagerSession) : Reports → ManagerSession → Prop where
  | begins : Telling s₀ [] s₀
  | tells {reports shown : Reports} {s t : ManagerSession} (telling : Telling s₀ reports s)
      (next : s.Tells shown t) : Telling s₀ (reports ++ shown) t

/-- Whatever comes of a session, something was shown. -/
theorem Reachable.exists_telling (reachable : Reachable s₀ s) :
    ∃ reports, s₀.Telling reports s := by
  induction reachable with
  | refl => exact ⟨[], .begins⟩
  | step _ next ih =>
    obtain ⟨reports, telling⟩ := ih
    cases next with
    | start refusal n r fresh admitted =>
      exact ⟨_, telling.tells (.start refusal n r fresh admitted)⟩
    | advance refusal n step => exact ⟨_, telling.tells (.advance refusal n step)⟩
    | read i step => exact ⟨_, telling.tells (.read i step)⟩
    | event e => exact ⟨_, telling.tells (.event e)⟩

end ManagerSession

end LanguageHub
