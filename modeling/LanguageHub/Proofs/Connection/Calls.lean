import LanguageHub.Proofs.Connection.Ledger
import LanguageHub.Proofs.Connection.Origins

/-!
# The calls of a connection on a run

Every step of a session is a step of its ledger: on every run the calls are kept.

No call is stranded. Once the task that reads has ended, for whatever reason, the table of waiting
calls is closed and empty, and every call whose request is written returns with its next step.
Whatever stands in the table belongs to a call that goes on.
-/

namespace LanguageHub

/-- The id and the ticket of a call that goes on. -/
def ConnectionTask.entry? : ConnectionTask → Option (Int × Nat)
  | .call k => some (k.id, k.ticket)
  | _ => none

/-- The outcome of a call. -/
def ConnectionAnswer.outcome? : ConnectionAnswer → Option Outcome
  | .outcome o => some o
  | .done _ => none

namespace ConnectionSession

open History

variable {s t : ConnectionSession} {h : History} {n capacity : Nat} {handlerFails : Bool}

/-- The calls of a session. -/
def ledger (s : ConnectionSession) : Ledger where
  table := s.connection.table
  nextId := s.connection.nextId
  going n := (s.tasks.state? n).bind ConnectionTask.entry?
  returned n := (s.tasks.answer? n).bind ConnectionAnswer.outcome?

/-- On every run the tasks are apart. -/
theorem Run.apart (run : Run (overPipes capacity handlerFails) h s) : s.tasks.Apart := by
  induction run with
  | refl => exact fun n hn ↦ absurd rfl hn
  | @start h s _ n r fresh ih =>
    have hnumber : n ∉ s.tasks.numbers := Tasks.state?_eq_none_iff.mp (state?_of_fresh fresh)
    have hanswer := answer?_of_fresh fresh
    cases r with
    | call request limit =>
      simp only [ConnectionSession.start, Call.start]
      cases s.connection.table.register s.connection.nextId with
      | error f => exact ih.finish n _
      | ok u => exact ih.start hnumber hanswer _
    | notify notice => exact ih.start hnumber hanswer _
    | close => exact ih.start hnumber hanswer _
  | advance _ n step ih =>
    obtain ⟨task, progress, c, _, _, rfl⟩ := advance?_eq_some step
    cases progress with
    | running next => exact ih.update n next
    | finished answer => exact ih.finish n answer
  | read _ step ih =>
    obtain ⟨_, _, _, rfl⟩ := readingStep_of_advanceReading? step
    exact ih
  | @event _ s _ e ih =>
    have htasks : (s.happen e).tasks = s.tasks := by cases e <;> rfl
    rw [htasks]
    exact ih

/-- The start of an operation is a step of the ledger. -/
theorem ledger_start (fresh : n ∉ s.numbers) (r : ConnectionRequest) :
    s.ledger.Step (s.startShows n r) (s.start n r).ledger := by
  have hstate := state?_of_fresh fresh
  have hanswer := answer?_of_fresh fresh
  have hnumber : n ∉ s.tasks.numbers := Tasks.state?_eq_none_iff.mp hstate
  have idle : s.ledger.going n = none := by simp [ledger, hstate]
  have unanswered : s.ledger.returned n = none := by simp [ledger, hanswer]
  have quiet : ∀ (task : ConnectionTask) (c : Connection), task.entry? = none →
      c.table = s.connection.table → c.nextId = s.connection.nextId →
      { s with connection := c, tasks := s.tasks.start n task }.ledger = s.ledger := by
    intro task c htask htable hnext
    have hgoing : ∀ m, ((s.tasks.start n task).state? m).bind ConnectionTask.entry? =
        (s.tasks.state? m).bind ConnectionTask.entry? := by
      intro m
      rw [Tasks.state?_start hnumber]
      by_cases hmn : m = n
      · simp [hmn, hstate, htask]
      · simp [hmn]
    simp only [ledger, htable, hnext, hgoing, Tasks.answer?_start]
  cases r with
  | call request limit =>
    cases hc : s.connection.table.closed with
    | true =>
      have hledger : (s.start n (.call request limit)).ledger =
          { s.ledger.finish n (.error (.transport "connection closed")) with
            nextId := s.ledger.nextId + 1 } := by
        simp only [start, Call.start, CallTable.register_of_closed hc, ledger, Ledger.finish,
          Ledger.mk.injEq, true_and]
        refine ⟨funext fun m ↦ ?_, funext fun m ↦ ?_⟩
        · rw [Tasks.state?_finish, Function.update_apply]
          split <;> rfl
        · rw [Tasks.answer?_finish, Function.update_apply]
          by_cases hmn : m = n
          · simp [hmn, hanswer, ConnectionAnswer.outcome?]
          · simp [hmn]
      rw [hledger]
      simp only [startShows, hc, if_true]
      exact .refuse n request idle unanswered
    | false =>
      obtain ⟨table, ticket, hregister⟩ := CallTable.register_of_open hc s.connection.nextId
      have hledger : (s.start n (.call request limit)).ledger =
          { s.ledger with
            table
            nextId := s.ledger.nextId + 1
            going := Function.update s.ledger.going n (some (s.ledger.nextId, ticket)) } := by
        simp only [start, Call.start, hregister, ledger, Tasks.answer?_start, Ledger.mk.injEq,
          true_and, and_true]
        refine funext fun m ↦ ?_
        rw [Tasks.state?_start hnumber, Function.update_apply]
        split <;> rfl
      rw [hledger]
      simp only [startShows, hc, Bool.false_eq_true, if_false]
      exact .register n request idle unanswered (silent_map_wire [_]) hc hregister
  | notify notice =>
    have hledger : (s.start n (.notify notice)).ledger = s.ledger := quiet _ _ rfl rfl rfl
    rw [hledger]
    refine .quiet fun x hx ↦ ?_
    simp only [startShows, List.mem_cons, List.not_mem_nil, or_false] at hx
    rcases hx with rfl | rfl <;>
      exact ⟨fun _ _ _ ↦ Occurrence.noConfusion, fun _ _ ↦ Occurrence.noConfusion⟩
  | close =>
    obtain ⟨htable, hnext⟩ : (Closing.start s.connection).2.table = s.connection.table ∧
        (Closing.start s.connection).2.nextId = s.connection.nextId := by
      unfold Closing.start
      split <;> exact ⟨rfl, rfl⟩
    have hledger : (s.start n .close).ledger = s.ledger := quiet _ _ rfl htable hnext
    rw [hledger]
    exact .quiet (by simp [startShows, Silent])

/-- The ledger after a step of an operation that goes on. -/
theorem ledger_running {task : ConnectionTask} (going : s.tasks.state? n = some task)
    (next : ConnectionTask) (entry : next.entry? = task.entry?) {c : Connection}
    (nextId : c.nextId = s.connection.nextId) :
    (s.record n c (.running next)).ledger = { s.ledger with table := c.table } := by
  have hgoing : ∀ m, ((s.tasks.update n next).state? m).bind ConnectionTask.entry? =
      (s.tasks.state? m).bind ConnectionTask.entry? := by
    intro m
    rw [Tasks.state?_update]
    by_cases hmn : m = n
    · simp [hmn, going, entry]
    · simp [hmn]
  simp only [record, ledger, nextId, hgoing, Tasks.answer?_update]

/-- The ledger after the last step of an operation that is no call. -/
theorem ledger_done {task : ConnectionTask} {c : Connection} (going : s.tasks.state? n = some task)
    (noCall : task.entry? = none) (nextId : c.nextId = s.connection.nextId)
    (answer : Except Failure Unit) :
    (s.record n c (.finished (.done answer))).ledger = { s.ledger with table := c.table } := by
  simp only [record, ledger, nextId, Ledger.mk.injEq, true_and]
  refine ⟨funext fun m ↦ ?_, funext fun m ↦ ?_⟩
  · rw [Tasks.state?_finish]
    by_cases hmn : m = n
    · simp [hmn, going, noCall]
    · simp [hmn]
  · rw [Tasks.answer?_finish]
    by_cases hmn : m = n
    · cases hanswer : s.tasks.answer? m <;> simp [hmn, ConnectionAnswer.outcome?]
    · simp [hmn]

/-- The ledger after the last step of a call. -/
theorem ledger_finished {task : ConnectionTask} {c : Connection} (apart : s.tasks.Apart)
    (going : s.tasks.state? n = some task) (nextId : c.nextId = s.connection.nextId)
    (outcome : Outcome) :
    (s.record n c (.finished (.outcome outcome))).ledger =
      { s.ledger.finish n outcome with table := c.table } := by
  have unanswered := apart n (by simp [going])
  simp only [record, ledger, nextId, Ledger.finish, Ledger.mk.injEq, true_and]
  refine ⟨funext fun m ↦ ?_, funext fun m ↦ ?_⟩
  · rw [Tasks.state?_finish, Function.update_apply]
    split <;> rfl
  · rw [Tasks.answer?_finish, Function.update_apply]
    by_cases hmn : m = n
    · simp [hmn, unanswered, ConnectionAnswer.outcome?]
    · simp [hmn]

/-- What a step of an operation shows concerns no call. -/
theorem silent_advanceShows (s : ConnectionSession) (n : Nat) : Silent (s.advanceShows n) := by
  obtain ⟨log, hlog, _⟩ := advanceShows_eq s n
  rw [hlog]
  exact silent_map_wire log

/-- A step of an operation is a step of the ledger. -/
theorem ledger_advance (apart : s.tasks.Apart) (step : s.advance? n = some t) :
    s.ledger.Step (s.advanceShows n) t.ledger := by
  have silent := silent_advanceShows s n
  obtain ⟨task, progress, c, going, hstep, rfl⟩ := advance?_eq_some step
  obtain ⟨_, _, nextId⟩ := stepTask?_keeps hstep
  cases task with
  | call k =>
    have hgoing : s.ledger.going n = some (k.id, k.ticket) := by
      simp [ledger, going, ConnectionTask.entry?]
    simp only [stepTask?, Option.map_eq_some_iff, Prod.exists] at hstep
    obtain ⟨p, d, hk, hp⟩ := hstep
    cases Call.takes_of_step? hk with
    | sends | sent =>
      cases hp
      rw [ledger_running going _ ?_ nextId]
      · exact .quiet silent
      · rfl
    | unsent =>
      cases hp
      rw [ledger_finished apart going nextId]
      exact .fail silent hgoing id
    | answered waiting fate =>
      cases hp
      rw [ledger_finished apart going nextId]
      exact .answer silent hgoing fate
    | expires =>
      cases hp
      rw [ledger_finished apart going nextId]
      exact .fail silent hgoing id
    | lost waiting gone undecided =>
      cases hp
      rw [ledger_finished apart going nextId]
      exact .lose silent hgoing gone undecided
  | notify call =>
    simp only [stepTask?, Connection.stepNotice?, Option.map_map, Option.map_eq_some_iff,
      Prod.exists] at hstep
    obtain ⟨p, u, _, hp⟩ := hstep
    cases p with
    | running call' =>
      cases hp
      rw [ledger_running going _ ?_ nextId]
      · exact .quiet silent
      · rfl
    | finished answer =>
      cases hp
      rw [ledger_done going rfl nextId]
      exact .quiet silent
  | close k =>
    cases k with
    | awaitingReader =>
      simp only [stepTask?, Closing.step?] at hstep
      split at hstep
      · cases hstep
        rw [ledger_running going _ ?_ nextId]
        · exact .quiet silent
        · rfl
      · cases hstep
    | ready =>
      cases hstep
      rw [ledger_done going rfl nextId]
      exact .close "connection closed" silent

/-- A step of the task that reads is a step of the ledger. -/
theorem ledger_read (step : s.advanceReading? = some t) :
    s.ledger.Step s.connection.readingShows t.ledger := by
  obtain ⟨notice, c, hcase, rfl⟩ := readingStep_of_advanceReading? step
  generalize s.connection.readingShows = shown at hcase
  cases hcase with
  | stops | ends => exact .close _ (silent_map_wire [])
  | givesUp => exact .close _ (silent_map_wire _)
  | resolves => exact .respond _ _
  | replies =>
    refine .quiet fun x hx ↦ ?_
    simp only [List.mem_cons, List.not_mem_nil, or_false] at hx
    rcases hx with rfl | rfl <;>
      exact ⟨fun _ _ _ ↦ Occurrence.noConfusion, fun _ _ ↦ Occurrence.noConfusion⟩
  | reads | passes => exact .quiet (silent_map_wire [])
  | writes | replied => exact .quiet (silent_map_wire _)

/-- On every run the calls are kept. -/
theorem Run.kept (run : Run (overPipes capacity handlerFails) h s) : s.ledger.Kept h := by
  induction run with
  | refl => exact Ledger.Kept.start {} 1 .empty rfl
  | start _ n r fresh ih => exact ih.step (ledger_start fresh r)
  | advance run n step ih => exact ih.step (ledger_advance run.apart step)
  | read _ step ih => exact ih.step (ledger_read step)
  | @event _ s _ e ih =>
    have hledger : (s.happen e).ledger = s.ledger := by cases e <;> rfl
    rw [hledger]
    exact ih

/-- Whatever waits in the table is a call that goes on. -/
theorem Run.owned (run : Run (overPipes capacity handlerFails) h s) {e : Int × Nat}
    (he : e ∈ s.connection.table.pending) : ∃ n k, s.tasks.state? n = some (.call k) ∧
      k.id = e.1 ∧ k.ticket = e.2 ∧ s.tasks.answer? n = none ∧ h.idOf? n = some e.1 := by
  obtain ⟨n, hn⟩ := run.kept.owned e he
  have called := (run.kept.going n e.1 e.2 hn).1
  obtain ⟨task, going, hentry⟩ := Option.bind_eq_some_iff.mp hn
  cases task with
  | call k =>
    cases hentry
    exact ⟨n, k, going, rfl, rfl, run.apart n (by simp [going]), called⟩
  | _ => cases hentry

/-- A call that has returned has left no entry. -/
theorem Run.notMem_ids_of_answered (run : Run (overPipes capacity handlerFails) h s) {id : Int}
    (called : h.idOf? n = some id) (answered : s.tasks.answer? n ≠ none) :
    id ∉ s.connection.table.ids := by
  intro hid
  obtain ⟨e, he, rfl⟩ := List.mem_map.mp hid
  obtain ⟨m, k, _, _, _, unanswered, hcalled⟩ := run.owned he
  rw [run.kept.distinct n m e.1 called hcalled] at answered
  exact answered unanswered

end ConnectionSession

/-! ### Waiting calls -/

/-- A closed ledger stays closed. -/
theorem Ledger.Step.closed {l m : Ledger} {shown : History} (step : l.Step shown m)
    (closed : l.table.closed = true) : m.table.closed = true := by
  cases step with
  | quiet | refuse | answer | lose => exact closed
  | register _ _ _ _ _ opened _ => simp [closed] at opened
  | fail | respond => exact (CallTable.closed_take _ _ _).trans closed
  | close => rfl

/-- Every byte of the request is written. -/
def Call.IsWritten (k : Call) : Prop :=
  match k.phase with
  | .waiting _ => True
  | .sending (.writing []) => True
  | .sending _ => False

namespace ConnectionSession

variable {s : ConnectionSession} {h : History} {capacity : Nat} {handlerFails : Bool}

/-- When the task that reads has ended, no call is accepted any more. -/
theorem Run.closed_of_ended (run : Run (overPipes capacity handlerFails) h s)
    (ended : s.connection.reading = .ended) : s.connection.table.closed = true := by
  induction run with
  | refl => cases ended
  | @start h s _ n r fresh ih =>
    exact (ledger_start fresh r).closed (ih ((start_reading s n r).1.symm.trans ended))
  | advance run n step ih =>
    exact (ledger_advance run.apart step).closed (ih ((advance_reading step).1.symm.trans ended))
  | @read h s t _ step ih =>
    obtain ⟨notice, c, hcase, rfl⟩ := readingStep_of_advanceReading? step
    generalize s.connection.readingShows = shown at hcase
    cases hcase with
    | stops | givesUp | ends => rfl
    | reads | resolves | replies | passes | writes | replied => cases ended
  | @event h s _ e ih =>
    have htable : (s.happen e).connection.table = s.connection.table := by cases e <;> rfl
    rw [htable]
    exact ih ((happen_reading s e).1.symm.trans ended)

/-- When the task that reads has ended, nothing waits in the table. -/
theorem Run.pending_of_ended (run : Run (overPipes capacity handlerFails) h s)
    (ended : s.connection.reading = .ended) : s.connection.table.pending = [] :=
  run.kept.sound.closed (run.closed_of_ended ended)

/-- When the task that reads has ended, a call that waits returns with its next step. -/
theorem Run.returns_of_ended (run : Run (overPipes capacity handlerFails) h s)
    (ended : s.connection.reading = .ended) {n : Nat} {k : Call}
    (going : s.tasks.state? n = some (.call k)) {due : Option Nat}
    (waiting : k.phase = .waiting due) :
    ∃ outcome t, s.advance? n = some t ∧ t.tasks.answer? n = some (.outcome outcome) := by
  have hgoing : s.ledger.going n = some (k.id, k.ticket) := by
    simp [ledger, going, ConnectionTask.entry?]
  have hempty : s.ledger.table.pending = [] := run.pending_of_ended ended
  obtain ⟨_, ⟨hmem, _⟩ | ⟨outcome, hfate, _⟩⟩ := run.kept.going n k.id k.ticket hgoing
  · rw [hempty] at hmem
    cases hmem
  · have hfate : s.connection.table.fate? k.ticket = some (.decided outcome) := hfate
    have hstep : k.step? (.operation n) s.now s.connection =
        some (.finished outcome, s.connection) := by
      simp only [Call.step?, waiting, hfate]
    refine ⟨outcome, _, advance?_call going hstep, ?_⟩
    simp only [callProgress, record, Tasks.answer?_finish, run.apart n (by simp [going])]
    simp

/-- When the task that reads has ended, a call whose request is written goes on. -/
theorem Run.advances_of_ended (run : Run (overPipes capacity handlerFails) h s)
    (ended : s.connection.reading = .ended) {n : Nat} {k : Call}
    (going : s.tasks.state? n = some (.call k)) (written : k.IsWritten) :
    ∃ t, s.advance? n = some t := by
  cases hphase : k.phase with
  | waiting due =>
    obtain ⟨_, t, hstep, _⟩ := run.returns_of_ended ended going hphase
    exact ⟨t, hstep⟩
  | sending call =>
    simp only [Call.IsWritten, hphase] at written
    cases call with
    | queued data => exact written.elim
    | writing rest =>
      cases rest with
      | cons b rest => exact written.elim
      | nil =>
        cases hstep : k.step? (.operation n) s.now s.connection with
        | some next => exact ⟨_, advance?_call going hstep⟩
        | none =>
          simp only [Call.step?, hphase, WriteCall.step?, WriteCall.finish] at hstep
          split at hstep
          · next hflush => cases hflush
          all_goals cases hstep

/-- Where everything has run, no operation takes a step. -/
theorem Quiescent.advance?_eq_none (quiescent : s.Quiescent) (n : Nat) : s.advance? n = none := by
  simp only [Quiescent, advanceAny?] at quiescent
  split at quiescent
  · cases quiescent
  · by_cases hn : n ∈ s.tasks.numbers
    · exact List.findSome?_eq_none_iff.mp quiescent n hn
    · simp [advance?, Tasks.state?_eq_none_iff.mpr hn]

/-- No call is stranded when the task that reads ends, and the table of waiting calls has no entry
of a call that has returned. -/
theorem no_stranded_call (run : Run (overPipes capacity handlerFails) h s) :
    (s.connection.reading = .ended →
      s.connection.table.closed = true ∧ s.connection.table.pending = [] ∧
      (∀ n k due, s.tasks.state? n = some (.call k) → k.phase = .waiting due →
        ∃ outcome t, s.advance? n = some t ∧ t.tasks.answer? n = some (.outcome outcome)) ∧
      (s.Quiescent → ∀ n k, s.tasks.state? n = some (.call k) → ¬ k.IsWritten)) ∧
    (∀ e ∈ s.connection.table.pending, ∃ n k, s.tasks.state? n = some (.call k) ∧
      k.id = e.1 ∧ k.ticket = e.2 ∧ s.tasks.answer? n = none) ∧
    ∀ n id, h.idOf? n = some id → s.tasks.answer? n ≠ none →
      id ∉ s.connection.table.ids := by
  refine ⟨fun ended ↦ ⟨run.closed_of_ended ended, run.pending_of_ended ended,
    fun n k due going waiting ↦ run.returns_of_ended ended going waiting,
    fun quiescent n k going written ↦ ?_⟩, fun e he ↦ ?_, fun n id ↦ run.notMem_ids_of_answered⟩
  · obtain ⟨t, hstep⟩ := run.advances_of_ended ended going written
    rw [quiescent.advance?_eq_none n] at hstep
    cases hstep
  · obtain ⟨n, k, going, hid, hticket, unanswered, _⟩ := run.owned he
    exact ⟨n, k, going, hid, hticket, unanswered⟩

/-- A call waits for its response while the stream from the server ends. -/
def lostCall : ConnectionSession :=
  let s := (overPipes 1000 false).start 0 (.call (.completion "file:///a.py" ⟨0, 0⟩) none)
  settle advanceAny? 1 ((settle advanceAny? 20 s).happen (.endInflow .ended))

/-- The call that lost its server returns with its next step. -/
theorem returns_lostCall : ∃ h, Run (overPipes 1000 false) h lostCall ∧
    lostCall.connection.table.pending = [] ∧
    ∃ outcome t, lostCall.advance? 0 = some t ∧ t.tasks.answer? 0 = some (.outcome outcome) := by
  have run : Run (overPipes 1000 false) [] (overPipes 1000 false) := .refl
  obtain ⟨_, run⟩ :=
    (run.start 0 (.call (.completion "file:///a.py" ⟨0, 0⟩) none) (by decide)).settle 20
  obtain ⟨h, run⟩ := (run.event (.endInflow .ended)).settle 1
  have run : Run (overPipes 1000 false) h lostCall := run
  have ended : lostCall.connection.reading = .ended := by decide +kernel
  have going : lostCall.tasks.state? 0 = some (.call ⟨1, 0, none, .waiting none⟩) := by
    decide +kernel
  obtain ⟨_, pending, returns, _⟩ := (no_stranded_call run).1 ended
  exact ⟨h, run, pending, returns 0 _ none going rfl⟩

end ConnectionSession

end LanguageHub
