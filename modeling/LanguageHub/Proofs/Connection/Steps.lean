import LanguageHub.Proofs.Connection.History
import LanguageHub.Proofs.Frame.Reading

/-!
# Runs of a connection

A run of a session with its history. Every session that can come of another does so by a run. What a
step of the task that reads and a step of a call can be is told case by case.
-/

namespace LanguageHub

/-! ### What the steps show -/

/-- What the body of a frame shows that the task that reads has decoded. -/
def Connection.bodyShows (body : String) : History :=
  match ServerMessage.decode body with
  | .ok (.response id outcome) => [.responded id (outcome.mapError RpcError.toFailure)]
  | .ok (.request id _) =>
    [.requested id, .wire (.asked .reading (Frame.encode (encodeNullReply id)))]
  | _ => []

/-- What a step of the task that reads shows. -/
def Connection.readingShows (c : Connection) : History :=
  match c.reading with
  | .ended => []
  | .replying call =>
    if c.stopping then (call.abandonShows .reading).map .wire
    else (call.shows .reading c.transport).map .wire
  | .fetching call =>
    if c.stopping then []
    else
      match call.step? .reading c.transport with
      | some (.finished (.ok (some body)), _) => Connection.bodyShows body
      | _ => []

/-- The write that an operation is at. -/
def ConnectionTask.writing? : ConnectionTask → Option WriteCall
  | .call ⟨_, _, _, .sending c⟩ => some c
  | .notify c => some c
  | _ => none

/-- The write that the task that reads is at. -/
def Connection.replying? (c : Connection) : Option WriteCall :=
  match c.reading with
  | .replying call => some call
  | _ => none

namespace ConnectionSession

/-- The writes that are going on. -/
def writers (s : ConnectionSession) : Writers
  | .reading => s.connection.replying?
  | .operation n => (s.tasks.state? n).bind ConnectionTask.writing?

/-- What the start of an operation shows. -/
def startShows (s : ConnectionSession) (n : Nat) : ConnectionRequest → History
  | .call request _ =>
    let id := s.connection.nextId
    .called n id request ::
      if s.connection.table.closed then []
      else [.wire (.asked (.operation n) (Frame.encode (request.encode id)))]
  | .notify notice =>
    [.notified n notice, .wire (.asked (.operation n) (Frame.encode notice.encode))]
  | .close => []

/-- What a step of an operation shows. -/
def advanceShows (s : ConnectionSession) (n : Nat) : History :=
  match s.writers (.operation n) with
  | some call => (call.shows (.operation n) s.connection.transport).map .wire
  | none => []

/-- What can come of a session, with the history on the way. -/
inductive Run (s₀ : ConnectionSession) : History → ConnectionSession → Prop where
  | refl : Run s₀ [] s₀
  | start {h : History} {s : ConnectionSession} (run : Run s₀ h s) (n : Nat)
      (r : ConnectionRequest) (fresh : n ∉ s.numbers) :
      Run s₀ (h ++ s.startShows n r) (s.start n r)
  | advance {h : History} {s t : ConnectionSession} (run : Run s₀ h s) (n : Nat)
      (step : s.advance? n = some t) : Run s₀ (h ++ s.advanceShows n) t
  | read {h : History} {s t : ConnectionSession} (run : Run s₀ h s)
      (step : s.advanceReading? = some t) : Run s₀ (h ++ s.connection.readingShows) t
  | event {h : History} {s : ConnectionSession} (run : Run s₀ h s) (e : Event) :
      Run s₀ h (s.happen e)

variable {s₀ s t : ConnectionSession} {h : History}

/-- The end of a run can come of its beginning. -/
theorem Run.reachable (run : Run s₀ h s) : Reachable s₀ s := by
  induction run with
  | refl => exact .refl
  | start _ n r fresh ih => exact ih.step (.start _ n r fresh)
  | advance _ n step ih => exact ih.step (.advance n step)
  | read _ step ih => exact ih.step (.read step)
  | event _ e ih => exact ih.step (.event _ e)

/-- What can come of a session is the end of a run. -/
theorem Reachable.run (reachable : Reachable s₀ s) : ∃ h, Run s₀ h s := by
  induction reachable with
  | refl => exact ⟨[], .refl⟩
  | step _ next ih =>
    obtain ⟨h, run⟩ := ih
    cases next with
    | start n r fresh => exact ⟨_, run.start n r fresh⟩
    | advance n step => exact ⟨_, run.advance n step⟩
    | read step => exact ⟨_, run.read step⟩
    | event e => exact ⟨_, run.event e⟩

/-- A run goes on until nothing can. -/
theorem Run.settle (run : Run s₀ h s) (fuel : Nat) :
    ∃ more, Run s₀ more (LanguageHub.settle advanceAny? fuel s) := by
  induction fuel generalizing h s with
  | zero => exact ⟨h, run⟩
  | succ fuel ih =>
    simp only [LanguageHub.settle]
    cases hstep : s.advanceAny? with
    | none => exact ⟨h, run⟩
    | some t =>
      simp only [advanceAny?] at hstep
      split at hstep
      · next hread =>
        cases hstep
        exact ih (run.read hread)
      · obtain ⟨n, _, hadvance⟩ := List.exists_of_findSome?_eq_some hstep
        exact ih (run.advance n hadvance)

end ConnectionSession

/-! ### The task that reads -/

namespace FrameCall

/-- Reading a frame leaves the stream to the server alone. -/
theorem step?_sink {a : Agent} {c : FrameCall} {t u : Transport}
    {p : Progress FrameCall FrameAnswer} (h : c.step? a t = some (p, u)) :
    u.writers = t.writers ∧ u.sink = t.sink := by
  rw [eq_of_step? h]
  exact ⟨rfl, rfl⟩

end FrameCall

/-! ### What the steps can be -/

namespace Connection

/-- What a step of the task that reads can be, with what it shows and the notification that it
hands to the handler. -/
inductive ReadingStep (c : Connection) : History → Connection → Option ServerNotice → Prop where
  /-- It was told to stop between two frames, or while it reads one. -/
  | stops {call : FrameCall} (fetching : c.reading = .fetching call) (told : c.stopping = true) :
      ReadingStep c [] c.endReading none
  /-- It was told to stop while it answers a request of the server. -/
  | givesUp {call : WriteCall} (replying : c.reading = .replying call)
      (told : c.stopping = true) :
      ReadingStep c ((call.abandonShows .reading).map .wire) c.endReading none
  | reads {call call' : FrameCall} {t : Transport} (fetching : c.reading = .fetching call)
      (step : call.step? .reading c.transport = some (.running call', t)) :
      ReadingStep c [] { c with transport := t, reading := .fetching call' } none
  | resolves {call : FrameCall} {t : Transport} {body : String} {id : Int}
      {outcome : Except RpcError Json} (fetching : c.reading = .fetching call)
      (going : c.stopping = false)
      (step : call.step? .reading c.transport = some (.finished (.ok (some body)), t))
      (decoded : ServerMessage.decode body = .ok (.response id outcome)) :
      ReadingStep c [.responded id (outcome.mapError RpcError.toFailure)]
        { c with
          transport := t
          table := (c.table.resolve id (outcome.mapError RpcError.toFailure)).1 }.fetch none
  | replies {call : FrameCall} {t : Transport} {body method : String} {id : Json}
      (fetching : c.reading = .fetching call) (going : c.stopping = false)
      (step : call.step? .reading c.transport = some (.finished (.ok (some body)), t))
      (decoded : ServerMessage.decode body = .ok (.request id method)) :
      ReadingStep c [.requested id, .wire (.asked .reading (Frame.encode (encodeNullReply id)))]
        { c with
          transport := (WriteCall.start .reading (Frame.encode (encodeNullReply id)) t).2
          reading := .replying (.queued (Frame.encode (encodeNullReply id))) } none
  /-- A frame makes no difference to calls and is not answered. -/
  | passes {call : FrameCall} {t : Transport} {answer : FrameAnswer}
      {notice : Option ServerNotice} (fetching : c.reading = .fetching call)
      (step : call.step? .reading c.transport = some (.finished answer, t))
      (result : { c with transport := t }.receiveFrame answer =
        ({ c with transport := t }.fetch, notice)) :
      ReadingStep c [] { c with transport := t }.fetch notice
  /-- The stream is at its end or broken, or the handler fails. -/
  | ends {call : FrameCall} {t : Transport} {answer : FrameAnswer}
      (fetching : c.reading = .fetching call)
      (step : call.step? .reading c.transport = some (.finished answer, t))
      (result : { c with transport := t }.receiveFrame answer =
        ({ c with transport := t }.endReading, none)) :
      ReadingStep c [] { c with transport := t }.endReading none
  | writes {call call' : WriteCall} {t : Transport} (replying : c.reading = .replying call)
      (step : call.step? .reading c.transport = some (.running call', t)) :
      ReadingStep c ((call.shows .reading c.transport).map .wire)
        { c with transport := t, reading := .replying call' } none
  | replied {call : WriteCall} {t : Transport} {answer : Except Failure Unit}
      (replying : c.reading = .replying call)
      (step : call.step? .reading c.transport = some (.finished answer, t)) :
      ReadingStep c ((call.shows .reading c.transport).map .wire) { c with transport := t }.fetch
        none

/-- A step that acts on a body is one of these. -/
private theorem readingStep_of_receive {c d : Connection} {notice : Option ServerNotice}
    {call : FrameCall} {t : Transport} {body : String} (fetching : c.reading = .fetching call)
    (going : c.stopping = false)
    (step : call.step? .reading c.transport = some (.finished (.ok (some body)), t))
    (received : { c with transport := t }.receive body = (d, notice)) :
    c.ReadingStep (bodyShows body) d notice := by
  have result : { c with transport := t }.receiveFrame (.ok (some body)) = (d, notice) := received
  simp only [receive] at received
  simp only [bodyShows]
  split at received
  · next id outcome decoded =>
    cases received
    rw [decoded]
    exact .resolves fetching going step decoded
  · next note decoded =>
    rw [decoded]
    simp only
    split at received
    · cases received
      exact .ends fetching step result
    · cases received
      exact .passes fetching step result
  · next id method decoded =>
    cases received
    rw [decoded]
    exact .replies fetching going step decoded
  · next f decoded =>
    cases received
    rw [decoded]
    exact .passes fetching step result

/-- A step of the task that reads is one of these. -/
theorem readingStep_of_stepReading? {c d : Connection} {notice : Option ServerNotice}
    (h : c.stepReading? = some (d, notice)) : c.ReadingStep c.readingShows d notice := by
  unfold stepReading? at h
  unfold readingShows
  cases hr : c.reading with
  | ended =>
    rw [hr] at h
    cases h
  | replying call =>
    rw [hr] at h
    simp only at h ⊢
    split at h
    · next told =>
      cases h
      rw [if_pos told]
      exact .givesUp hr told
    · next going =>
      rw [if_neg going]
      split at h
      · cases h
      · next step => cases h; exact .writes hr step
      · next step => cases h; exact .replied hr step
  | fetching call =>
    rw [hr] at h
    simp only at h ⊢
    split at h
    · next told =>
      cases h
      rw [if_pos told]
      exact .stops hr told
    · next going =>
      rw [if_neg going]
      split at h
      · cases h
      · next step =>
        cases h
        rw [step]
        exact .reads hr step
      · next answer t step =>
        rw [step]
        simp only [Option.some.injEq] at h
        cases answer with
        | error f =>
          simp only
          simp only [receiveFrame] at h
          split at h
          · next hp => cases h; exact .passes hr step (by simp only [receiveFrame, hp, if_true])
          · next hp => cases h; exact .ends hr step (by simp only [receiveFrame, if_neg hp])
        | ok body? =>
          cases body? with
          | none =>
            cases h
            exact .ends hr step rfl
          | some body =>
            have result : { c with transport := t }.receive body = (d, notice) := by
              rwa [← hr] at h
            exact readingStep_of_receive hr (Bool.eq_false_iff.mpr going) step result

/-- A task that has ended takes no step. -/
theorem ReadingStep.ne_ended {c d : Connection} {shown : History} {notice : Option ServerNotice}
    (h : c.ReadingStep shown d notice) : c.reading ≠ .ended := by
  cases h with
  | stops hr | givesUp hr | reads hr | resolves hr | replies hr | passes hr | ends hr | writes hr
  | replied hr => simp only [hr, ne_eq, reduceCtorEq, not_false_eq_true]

end Connection

namespace Call

/-- What a step of a call can be. -/
inductive Takes (a : Agent) (now : Nat) (k : Call) (c : Connection) :
    Progress Call Outcome → Connection → Prop where
  | sends {call call' : WriteCall} {t : Transport} (sending : k.phase = .sending call)
      (step : call.step? a c.transport = some (.running call', t)) :
      Takes a now k c (.running { k with phase := .sending call' }) { c with transport := t }
  | sent {call : WriteCall} {t : Transport} (sending : k.phase = .sending call)
      (step : call.step? a c.transport = some (.finished (.ok ()), t)) :
      Takes a now k c (.running { k with phase := .waiting (k.limit.map fun d ↦ now + d.nanos) })
        { c with transport := t }
  | unsent {call : WriteCall} {t : Transport} {reason : String}
      (sending : k.phase = .sending call)
      (step : call.step? a c.transport = some (.finished (.error (.transport reason)), t)) :
      Takes a now k c (.finished (.error (.transport reason))) (k.forget { c with transport := t })
  | answered {due : Option Nat} {outcome : Outcome} (waiting : k.phase = .waiting due)
      (fate : c.table.fate? k.ticket = some (.decided outcome)) :
      Takes a now k c (.finished outcome) c
  | expires {time : Nat} {limit : Duration} (waiting : k.phase = .waiting (some time))
      (limited : k.limit = some limit) (fate : c.table.fate? k.ticket = some .waiting)
      (late : time ≤ now) : Takes a now k c (.finished (.error (.timeout limit))) (k.forget c)
  | lost {due : Option Nat} (waiting : k.phase = .waiting due)
      (gone : c.table.fate? k.ticket ≠ some .waiting)
      (undecided : ∀ outcome, c.table.fate? k.ticket ≠ some (.decided outcome)) :
      Takes a now k c (.finished (.error (.transport "connection closed before response"))) c

/-- A step of a call is one of these. -/
theorem takes_of_step? {a : Agent} {now : Nat} {k : Call} {c d : Connection}
    {p : Progress Call Outcome} (h : k.step? a now c = some (p, d)) : Takes a now k c p d := by
  unfold step? at h
  cases hk : k.phase with
  | sending call =>
    rw [hk] at h
    simp only at h
    split at h
    · cases h
    · next step => cases h; exact .sends hk step
    · next step => cases h; exact .sent hk step
    · next f t step =>
      cases h
      obtain ⟨reason, rfl⟩ := WriteCall.transport_of_step? step
      exact .unsent hk step
  | waiting due =>
    rw [hk] at h
    simp only at h
    split at h
    · next fate => cases h; exact .answered hk fate
    · next fate =>
      split at h
      · next hdue limited =>
        split at h
        · next late =>
          cases h
          exact .expires hk limited fate late
        · cases h
      · cases h
    · next undecided gone =>
      cases h
      exact .lost hk gone undecided

end Call

/-! ### Sessions -/

namespace ConnectionSession

variable {s t : ConnectionSession} {n : Nat}

/-- What a step of an operation makes of a session. -/
theorem advance?_eq_some (step : s.advance? n = some t) :
    ∃ task progress c, s.tasks.state? n = some task ∧
      stepTask? n s.now task s.connection = some (progress, c) ∧ t = s.record n c progress := by
  simp only [advance?, Option.bind_eq_bind, Option.bind_eq_some_iff, Option.pure_def,
    Option.some.injEq, Prod.exists] at step
  obtain ⟨task, htask, progress, c, hstep, rfl⟩ := step
  exact ⟨task, progress, c, htask, hstep, rfl⟩

/-- What a call has come to, as what an operation has come to. -/
def callProgress : Progress Call Outcome → Progress ConnectionTask ConnectionAnswer
  | .running k => .running (.call k)
  | .finished outcome => .finished (.outcome outcome)

/-- A step of a call is a step of its operation. -/
theorem advance?_call {k : Call} {p : Progress Call Outcome} {c : Connection}
    (going : s.tasks.state? n = some (.call k))
    (step : k.step? (.operation n) s.now s.connection = some (p, c)) :
    s.advance? n = some (s.record n c (callProgress p)) := by
  have hstep : stepTask? n s.now (.call k) s.connection = some (callProgress p, c) := by
    rw [stepTask?, step]
    cases p <;> rfl
  rw [advance?, going, Option.bind_eq_bind, Option.bind_some, hstep]
  rfl

/-- A step of the task that reads is a step of its connection. -/
theorem readingStep_of_advanceReading? (step : s.advanceReading? = some t) :
    ∃ notice c, s.connection.ReadingStep s.connection.readingShows c notice ∧
      t = { s with connection := c, handled := s.handled ++ notice.toList } := by
  simp only [advanceReading?, Option.map_eq_some_iff, Prod.exists] at step
  obtain ⟨c, notice, hstep, rfl⟩ := step
  exact ⟨notice, c, Connection.readingStep_of_stepReading? hstep, rfl⟩

/-- What a task comes to is recorded beside its connection. -/
@[simp]
theorem connection_record (s : ConnectionSession) (n : Nat) (c : Connection)
    (p : Progress ConnectionTask ConnectionAnswer) : (s.record n c p).connection = c := by
  cases p <;> rfl

/-- The start of an operation leaves the task that reads where it is; it may be told to stop. -/
theorem start_reading (s : ConnectionSession) (n : Nat) (r : ConnectionRequest) :
    (s.start n r).connection.reading = s.connection.reading ∧
      (s.connection.stopping = true → (s.start n r).connection.stopping = true) := by
  cases r with
  | call request limit =>
    simp only [start, Call.start]
    cases s.connection.table.register s.connection.nextId <;> exact ⟨rfl, id⟩
  | notify notice => exact ⟨rfl, id⟩
  | close =>
    simp only [start, Closing.start]
    split
    · exact ⟨rfl, id⟩
    · exact ⟨rfl, fun _ ↦ rfl⟩

/-- A step of an operation leaves the task that reads and the next id as they are. -/
theorem stepTask?_keeps {now : Nat} {task : ConnectionTask} {c d : Connection}
    {p : Progress ConnectionTask ConnectionAnswer} (h : stepTask? n now task c = some (p, d)) :
    d.reading = c.reading ∧ d.stopping = c.stopping ∧ d.nextId = c.nextId := by
  cases task with
  | call k =>
    simp only [stepTask?, Option.map_eq_some_iff, Prod.exists] at h
    obtain ⟨q, e, hk, hp⟩ := h
    cases Call.takes_of_step? hk <;> cases hp <;> exact ⟨rfl, rfl, rfl⟩
  | notify call =>
    simp only [stepTask?, Connection.stepNotice?, Option.map_map, Option.map_eq_some_iff,
      Prod.exists] at h
    obtain ⟨q, u, _, hp⟩ := h
    cases q <;> cases hp <;> exact ⟨rfl, rfl, rfl⟩
  | close k =>
    cases k with
    | awaitingReader =>
      simp only [stepTask?, Closing.step?] at h
      split at h <;> cases h
      exact ⟨rfl, rfl, rfl⟩
    | ready =>
      cases h
      exact ⟨rfl, rfl, rfl⟩

/-- A step of an operation leaves the task that reads as it is. -/
theorem advance_reading (step : s.advance? n = some t) :
    t.connection.reading = s.connection.reading ∧
      t.connection.stopping = s.connection.stopping := by
  obtain ⟨task, progress, c, _, hstep, rfl⟩ := advance?_eq_some step
  obtain ⟨reading, stopping, _⟩ := stepTask?_keeps hstep
  rw [connection_record]
  exact ⟨reading, stopping⟩

/-- What the other side does leaves the task that reads as it is. -/
theorem happen_reading (s : ConnectionSession) (e : Event) :
    (s.happen e).connection.reading = s.connection.reading ∧
      (s.happen e).connection.stopping = s.connection.stopping := by
  cases e <;> exact ⟨rfl, rfl⟩

end ConnectionSession

end LanguageHub
