import LanguageHub.Proofs.Connection.Closing
import LanguageHub.Proofs.Connection.Deadlines

/-!
# Closing is final

Once a closing has returned, the handler of notifications is called no more, every call is
refused at once, and a further closing changes nothing, whatever else went on (`Shut`). Where no
two closings have overlapped, no later notification is written either
(`closing_is_final`). Where two have overlapped, one may be: the closing that does not wait for
the task that reads finds the stream in its hands, and nobody lets go of it any more
(`exists_notice_behind_closing`).
-/

namespace LanguageHub

/-- A task that was told to stop hands nothing to the handler. -/
theorem Connection.notice_of_stopping {c d : Connection} {notice : Option ServerNotice}
    (told : c.stopping = true) (step : c.stepReading? = some (d, notice)) : notice = none := by
  unfold stepReading? at step
  split at step
  · cases step
  all_goals
    rw [if_pos told] at step
    cases step
    rfl

/-- Ending the calls of a closed table without entries changes nothing. -/
theorem CallTable.failAll_of_closed {t : CallTable} (closed : t.closed = true)
    (empty : t.pending = []) (reason : String) : t.failAll reason = t := by
  obtain ⟨pending, tickets, _⟩ := t
  cases closed
  cases empty
  rfl

namespace ConnectionSession

variable {s s₁ t : ConnectionSession} {n m : Nat} {answer : ConnectionAnswer}

/-- The operation with the given number has ended with an answer. -/
structure Ended (s : ConnectionSession) (n : Nat) (answer : ConnectionAnswer) : Prop where
  gone : s.tasks.state? n = none
  answered : s.tasks.answer? n = some answer

/-- An operation that has ended stays so. -/
theorem Ended.step (ended : s.Ended n answer) (next : Step s t) : t.Ended n answer := by
  have used : n ∈ s.numbers :=
    mem_numbers_iff.mpr (.inr (by rw [ended.answered]; exact Option.some_ne_none _))
  obtain ⟨-, step | ⟨hstate, hanswer⟩⟩ := next.keeps used
  · rw [advance?, ended.gone] at step
    cases step
  · exact ⟨hstate.trans ended.gone, hanswer.trans ended.answered⟩

/-- An operation that has ended stays so on every run. -/
theorem Ended.reachable (ended : s.Ended n answer) (reachable : Reachable s t) :
    t.Ended n answer := by
  induction reachable with
  | refl => exact ended
  | step _ next ih => exact ih.step next

/-- An operation that was going on and finishes has ended. -/
theorem ended_finished (unanswered : s.tasks.answer? n = none) (c : Connection)
    (answer : ConnectionAnswer) : (s.record n c (.finished answer)).Ended n answer :=
  ⟨by simp [record, Tasks.state?_finish], by simp [record, Tasks.answer?_finish, unanswered]⟩

/-- Whatever happens leaves an operation that is going on where it is, unless it is a step of this
operation. -/
theorem Step.keeps_going {task : ConnectionTask} (next : Step s t)
    (going : s.tasks.state? n = some task) (unanswered : s.tasks.answer? n = none) :
    s.advance? n = some t ∨ t.tasks.state? n = some task ∧ t.tasks.answer? n = none := by
  have used : n ∈ s.numbers :=
    mem_numbers_iff.mpr (.inl (by rw [going]; exact Option.some_ne_none _))
  refine (next.keeps used).2.imp_right fun ⟨hstate, hanswer⟩ ↦ ?_
  exact ⟨hstate.trans going, hanswer.trans unanswered⟩

/-- A number that is used stays used. -/
theorem Reachable.mem_numbers (reachable : Reachable s t) (used : n ∈ s.numbers) :
    n ∈ t.numbers := by
  induction reachable with
  | refl => exact used
  | @step t u _ next ih =>
    cases next with
    | start m r fresh => exact (mem_numbers_start fresh r).mpr (.inr ih)
    | advance m step => exact mem_numbers_advance step ih
    | read step =>
      obtain ⟨_, _, _, rfl⟩ := readingStep_of_advanceReading? step
      exact ih
    | event e => cases e <;> exact ih

/-- Nothing that happens undoes what holds of a connection for good. -/
theorem Step.onward (next : Step s t) : s.connection.Onward t.connection := by
  cases next with
  | start n r => exact (moves_start s n r).onward
  | advance n step =>
    obtain ⟨task, progress, c, -, hstep, rfl⟩ := advance?_eq_some step
    rw [connection_record]
    exact (moves_stepTask? hstep).onward
  | read step =>
    obtain ⟨notice, c, hcase, rfl⟩ := readingStep_of_advanceReading? step
    exact hcase.onward
  | event e =>
    cases e with
    | arrive | endInflow | deliver | breakSink => exact .of_transport id rfl
    | tick => exact .refl _
    | setHandler => exact ⟨.refl, id, id, id, rfl⟩

/-- What holds of a connection for good holds on every run. -/
theorem Reachable.onward (reachable : Reachable s t) : s.connection.Onward t.connection := by
  induction reachable with
  | refl => exact .refl _
  | step _ next ih => exact ih.trans next.onward

/-! ### Connections that are closed for good -/

/-- What a closing that has returned leaves behind. -/
structure Shut (s : ConnectionSession) : Prop where
  stopping : s.connection.stopping = true
  closed : s.connection.transport.closed = true
  refusing : s.connection.table.closed = true
  tidy : s.connection.table.Tidy

namespace Shut

/-- A connection that is closed for good stays so. -/
theorem step (shut : s.Shut) (next : Step s t) : t.Shut :=
  have onward := next.onward
  ⟨onward.stopping shut.stopping, onward.closed shut.closed, onward.table.closed shut.refusing,
    onward.table.tidy shut.tidy⟩

/-- The handler is not called any more. -/
theorem handled_step (shut : s.Shut) (next : Step s t) : t.handled = s.handled := by
  cases next with
  | start n r =>
    cases r with
    | call request limit =>
      simp only [start]
      split <;> rfl
    | notify | close => rfl
  | advance n step =>
    obtain ⟨task, progress, c, -, -, rfl⟩ := advance?_eq_some step
    cases progress <;> rfl
  | read step =>
    simp only [advanceReading?, Option.map_eq_some_iff, Prod.exists] at step
    obtain ⟨c, notice, hstep, rfl⟩ := step
    rw [Connection.notice_of_stopping shut.stopping hstep]
    exact List.append_nil _
  | event e => cases e <;> rfl

/-- A connection that is closed for good stays so on every run, and the handler is not called any
more. -/
theorem reachable (shut : s.Shut) (later : Reachable s t) : t.Shut ∧ t.handled = s.handled := by
  induction later with
  | refl => exact ⟨shut, rfl⟩
  | step _ next ih => exact ⟨ih.1.step next, (ih.1.handled_step next).trans ih.2⟩

/-- A call is refused at once and leaves the stream alone. -/
theorem start_call (shut : s.Shut) (fresh : n ∉ s.numbers) (request : Request)
    (limit : Option Duration) :
    (s.start n (.call request limit)).connection.transport = s.connection.transport ∧
      (s.start n (.call request limit)).Ended n
        (.outcome (.error (.transport "connection closed"))) := by
  simp only [start, Call.start, CallTable.register_of_closed shut.refusing, true_and]
  exact ⟨by simp [Tasks.state?_finish], by simp [Tasks.answer?_finish, answer?_of_fresh fresh]⟩

/-- A further closing begins without a change and has nothing to wait for. -/
theorem start_close (shut : s.Shut) (fresh : n ∉ s.numbers) :
    (s.start n .close).connection = s.connection ∧
      (s.start n .close).tasks.state? n = some (.close .ready) ∧
      (s.start n .close).tasks.answer? n = none := by
  have hnumber : n ∉ s.tasks.numbers := Tasks.state?_eq_none_iff.mp (state?_of_fresh fresh)
  simp only [start, Closing.start, shut.stopping, if_true, Tasks.state?_start hnumber, true_and]
  exact answer?_of_fresh fresh

/-- A closing that is ready returns with its next step and changes nothing. -/
theorem advance_close (shut : s.Shut) (going : s.tasks.state? n = some (.close .ready)) :
    s.advance? n = some (s.record n s.connection (.finished (.done (.ok ())))) := by
  rw [advance?, going, Option.bind_eq_bind, Option.bind_some]
  simp only [stepTask?, Closing.step?, Transport.close_of_closed shut.closed,
    CallTable.failAll_of_closed shut.refusing (shut.tidy.closed shut.refusing)]
  rfl

/-- A further closing is about to return, or it has returned without an error. -/
theorem close_reachable (shut : s.Shut) (fresh : n ∉ s.numbers)
    (reachable : Reachable (s.start n .close) t) :
    (t.tasks.state? n = some (.close .ready) ∧ t.tasks.answer? n = none) ∨
      t.Ended n (.done (.ok ())) := by
  have begun : (s.start n .close).Shut := shut.step (.start s n .close fresh)
  induction reachable with
  | refl => exact .inl (shut.start_close fresh).2
  | @step t u before next ih =>
    obtain ⟨going, unanswered⟩ | ended := ih
    · refine .symm ((next.keeps_going going unanswered).imp_left fun step ↦ ?_)
      rw [(begun.reachable before).1.advance_close going] at step
      cases step
      exact ended_finished unanswered _ _
    · exact .inr (ended.step next)

end Shut

/-- A closing goes on, or it has returned and the connection is closed for good. -/
inductive Closes (s : ConnectionSession) (n : Nat) : Prop where
  | goes {k : Closing} (going : s.tasks.state? n = some (.close k))
      (unanswered : s.tasks.answer? n = none) (stopping : s.connection.stopping = true)
  | returned {result : Except Failure Unit} (ended : s.Ended n (.done result)) (shut : s.Shut)

/-- A step of a closing leads it on, or it returns and the connection is closed for good. -/
theorem closes_advance {k : Closing} (tidy : s.connection.table.Tidy)
    (going : s.tasks.state? n = some (.close k)) (unanswered : s.tasks.answer? n = none)
    (stopping : s.connection.stopping = true) (step : s.advance? n = some t) : t.Closes n := by
  obtain ⟨task, progress, c, htask, hstep, rfl⟩ := advance?_eq_some step
  cases htask.symm.trans going
  cases k with
  | awaitingReader =>
    simp only [stepTask?, Closing.step?] at hstep
    split at hstep <;> cases hstep
    exact .goes (k := .ready) (by simp [record, Tasks.state?_update, going]) unanswered stopping
  | ready =>
    cases hstep
    refine .returned (ended_finished unanswered _ _) ⟨stopping, ?_, rfl, tidy.failAll _⟩
    exact (Connection.lasts_close s.connection.transport).1

/-- A closing that began goes on, or it has returned and the connection is closed for good. -/
theorem Reachable.closes (fresh : n ∉ s.numbers)
    (tidy : (s.start n .close).connection.table.Tidy)
    (reachable : Reachable (s.start n .close) t) : t.Closes n := by
  induction reachable with
  | refl =>
    have unanswered : (s.start n .close).tasks.answer? n = none := answer?_of_fresh (s := s) fresh
    refine .goes ((closing_start fresh .close).mpr (.inr ⟨rfl, rfl, rfl⟩)) unanswered ?_
    simp only [start, Closing.start]
    split
    · next told => exact told
    · rfl
  | @step t u before next ih =>
    cases ih with
    | returned ended shut => exact .returned (ended.step next) (shut.step next)
    | @goes k going unanswered stopping =>
      obtain step | ⟨hstate, hanswer⟩ := next.keeps_going going unanswered
      · exact closes_advance (before.onward.table.tidy tidy) going unanswered stopping step
      · exact .goes hstate hanswer (next.onward.stopping stopping)

/-- A closing that has been answered has closed the connection for good. -/
theorem Closes.shut (closes : s.Closes n) (answered : s.tasks.answer? n ≠ none) : s.Shut := by
  cases closes with
  | goes _ unanswered => exact absurd unanswered answered
  | returned _ shut => exact shut

/-! ### Notifications after the end -/

/-- A notification that waits for its turn, or has failed because the connection is closed. -/
inductive Unsent (s : ConnectionSession) (n : Nat) : Prop where
  | waits {frame : Bytes} (going : s.tasks.state? n = some (.notify (.queued frame)))
      (unanswered : s.tasks.answer? n = none)
  | failed (ended : s.Ended n (.done (.error .transportClosed)))

/-- A notification begins to wait for its turn. -/
theorem unsent_start (fresh : n ∉ s.numbers) (notice : Notice) :
    (s.start n (.notify notice)).Unsent n := by
  have hnumber : n ∉ s.tasks.numbers := Tasks.state?_eq_none_iff.mp (state?_of_fresh fresh)
  have going : (s.start n (.notify notice)).tasks.state? n =
      some (.notify (.queued (Frame.encode notice.encode))) := by
    simp [start, Connection.startNotice, WriteCall.start, Tasks.state?_start hnumber]
  exact .waits going (answer?_of_fresh (s := s) fresh)

/-- A notification has its turn only when the stream is let go: it fails and writes nothing. -/
theorem Unsent.advance (unsent : s.Unsent n) (left : s.connection.transport.LeftTo m)
    (other : n ≠ m) (step : s.advance? n = some t) :
    t.Ended n (.done (.error .transportClosed)) ∧
      t.connection.transport.sink = s.connection.transport.sink := by
  cases unsent with
  | failed ended =>
    rw [advance?, ended.gone] at step
    cases step
  | waits going unanswered =>
    obtain ⟨task, progress, c, htask, hstep, rfl⟩ := advance?_eq_some step
    cases htask.symm.trans going
    simp only [stepTask?, Connection.stepNotice?, Option.map_map, Option.map_eq_some_iff,
      Prod.exists] at hstep
    obtain ⟨p, u, hcall, hp⟩ := hstep
    generalize hn : (p, u) = next at hcall
    cases WriteCall.takes_of_step? hcall with
    | opens first held =>
      -- The turn is that of the operation to which the stream is left.
      have same := left.holder held
      rw [Lock.isHeldBy, beq_iff_eq] at first
      exact absurd (Agent.operation.inj (Option.some.inj (first.symm.trans same))) other
    | refuses first gone =>
      cases hn
      cases hp
      exact ⟨ended_finished unanswered _ _, by rw [connection_record]⟩

/-- A notification that begins when the stream is left to another operation is not sent. -/
theorem Reachable.unsent (left : s.connection.transport.LeftTo m) (used : m ∈ s.numbers)
    (fresh : n ∉ s.numbers) {notice : Notice}
    (reachable : Reachable (s.start n (.notify notice)) t) :
    t.Unsent n ∧ ∀ u, t.advance? n = some u →
      u.connection.transport.sink = t.connection.transport.sink := by
  have other : n ≠ m := fun same ↦ fresh (same ▸ used)
  have begun : (s.start n (.notify notice)).connection.transport.LeftTo m :=
    (Step.start s n (.notify notice) fresh).leftTo left
  suffices unsent : t.Unsent n from
    ⟨unsent, fun u step ↦ (unsent.advance (reachable.leftTo begun) other step).2⟩
  induction reachable with
  | refl => exact unsent_start fresh notice
  | @step t u before next ih =>
    cases ih with
    | failed ended => exact .failed (ended.step next)
    | waits going unanswered =>
      obtain step | ⟨hstate, hanswer⟩ := next.keeps_going going unanswered
      · exact .failed ((Unsent.waits going unanswered).advance (before.leftTo begun) other step).1
      · exact .waits hstate hanswer

/-! ### What remains possible when a closing has returned -/

/-- A connection over streams of any kind. -/
def opened (source : Source) (sink : Outflow) (handlerFails : Bool) : ConnectionSession :=
  { connection := .ofTransport { source, sink } handlerFails }

/-- Where closings come one after the other, nobody closes the connection before the task that
reads has ended. -/
theorem ReachableAlone.guarded {source : Source} {sink : Outflow} {handlerFails : Bool}
    (empty : sink.written = []) (reachable : ReachableAlone (opened source sink handlerFails) s) :
    s.Guarded := by
  induction reachable with
  | refl => exact ⟨nofun, nofun, nofun⟩
  | step before next alone ih =>
    obtain ⟨h, run⟩ := before.reachable.run
    have orderly := run.keepsOrder (orderly_ofTransport rfl empty handlerFails)
    cases next with
    | start n r fresh => exact ih.start fresh alone
    | advance n step => exact ih.advance orderly step
    | read step => exact ih.read step
    | event e => exact ih.event e

/-- What may still become of operations on a connection that is closed for good: a call is refused
at once, and a further closing changes nothing and returns without an error. -/
theorem Shut.refuses (shut : s.Shut) (fresh : n ∉ s.numbers) :
    (∀ request limit t, Reachable (s.start n (.call request limit)) t →
      (s.start n (.call request limit)).connection.transport = s.connection.transport ∧
        t.Ended n (.outcome (.error (.transport "connection closed")))) ∧
    ∀ t, Reachable (s.start n .close) t →
      (s.start n .close).connection = s.connection ∧
        (t.Ended n (.done (.ok ())) ∨
          t.advance? n = some (t.record n t.connection (.finished (.done (.ok ()))))) := by
  refine ⟨fun request limit t reachable ↦ ?_, fun t reachable ↦ ?_⟩
  · obtain ⟨transport, ended⟩ := shut.start_call fresh request limit
    exact ⟨transport, ended.reachable reachable⟩
  · refine ⟨(shut.start_close fresh).1, ?_⟩
    have later := ((shut.step (.start s n .close fresh)).reachable reachable).1
    exact (shut.close_reachable fresh reachable).symm.imp_right fun going ↦
      later.advance_close going.1

/-- Closing is final where no two closings overlap. Once a closing has returned, whatever writes
were going on and whatever the server does, the handler is called no more and the connection
stays closed; a call is refused at once; a notification waits for its turn or has failed, and
writes nothing; and a further closing changes nothing and returns without an error. -/
theorem closing_is_final {source : Source} {sink : Outflow} {handlerFails : Bool}
    (empty : sink.written = []) (fresh : n ∉ s₁.numbers)
    (begun : ReachableAlone (opened source sink handlerFails) (s₁.start n .close))
    (goesOn : ReachableAlone (s₁.start n .close) s) (returned : s.tasks.answer? n ≠ none)
    (later : Reachable s t) :
    t.handled = s.handled ∧ t.connection.isClosed = true ∧ ∀ m ∉ t.numbers,
      (∀ notice u, Reachable (t.start m (.notify notice)) u → u.Unsent m ∧
        ∀ v, u.advance? m = some v →
          v.connection.transport.sink = u.connection.transport.sink) ∧
      (∀ request limit u, Reachable (t.start m (.call request limit)) u →
        (t.start m (.call request limit)).connection.transport = t.connection.transport ∧
          u.Ended m (.outcome (.error (.transport "connection closed")))) ∧
      ∀ u, Reachable (t.start m .close) u →
        (t.start m .close).connection = t.connection ∧
          (u.Ended m (.done (.ok ())) ∨
            u.advance? m = some (u.record m u.connection (.finished (.done (.ok ()))))) := by
  have tidy : (s₁.start n .close).connection.table.Tidy :=
    begun.reachable.onward.table.tidy .empty
  have shut : s.Shut := (goesOn.reachable.closes fresh tidy).shut returned
  obtain ⟨m, used, left⟩ := ((begun.trans goesOn).guarded empty).closed shut.closed |>.2
  obtain ⟨shut, handled⟩ := shut.reachable later
  refine ⟨handled, by simp [Connection.isClosed, shut.closed], fun k fresh ↦ ?_⟩
  refine ⟨fun notice u reachable ↦ ?_, shut.refuses fresh⟩
  exact reachable.unsent (later.leftTo left) (later.mem_numbers used) fresh

/-- A connection whose stream is full, with a notification half sent. -/
def stuckNotice : ConnectionSession :=
  settle advanceAny? 30
    ((opened {} { capacity := some 16 } false).start 0 (.notify .handshakeDone))

/-- The closing of a connection whose stream is full returns, and a later notification is not
sent. -/
theorem final_stuckNotice :
    let s := settle advanceAny? 30 (stuckNotice.start 1 .close)
    s.tasks.answer? 1 ≠ none ∧ 2 ∉ s.numbers ∧
      ∀ u, Reachable (s.start 2 (.notify .handshakeDone)) u → u.Unsent 2 := by
  intro s
  have facts : ((opened {} { capacity := some 16 } false).start 0
        (.notify .handshakeDone)).ClosesAlone ∧ 1 ∉ stuckNotice.numbers ∧
      (stuckNotice.start 1 .close).ClosesAlone ∧ (s.tasks.answer? 1).isSome ∧ 2 ∉ s.numbers := by
    decide +kernel
  obtain ⟨aloneAtFirst, unused, alone, returned, fresh⟩ := facts
  have begun : ReachableAlone (opened {} { capacity := some 16 } false)
      ((opened {} { capacity := some 16 } false).start 0 (.notify .handshakeDone)) :=
    ReachableAlone.refl.step (.start _ 0 _ List.not_mem_nil) aloneAtFirst
  have begun : ReachableAlone (opened {} { capacity := some 16 } false)
      (stuckNotice.start 1 .close) :=
    (begun.settle aloneAtFirst 30).1.step (.start _ 1 .close unused) alone
  have goesOn : ReachableAlone (stuckNotice.start 1 .close) s :=
    (ReachableAlone.refl.settle alone 30).1
  have returned : s.tasks.answer? 1 ≠ none := Option.isSome_iff_ne_none.mp returned
  obtain ⟨-, -, final⟩ := closing_is_final rfl unused begun goesOn returned .refl
  exact ⟨returned, fresh, fun u reachable ↦ ((final 2 fresh).1 _ u reachable).1⟩

/-! ### Closings that overlap -/

/-- The answer to a request of the server is being written to a stream that is full. -/
def replyingSlowly : ConnectionSession :=
  settle advanceAny? 30 ((overPipes 40 false).happen
    (.arrive (Frame.encode "\x7b\"id\":1,\"method\":\"m\"\x7d")))

/-- A closing has returned before another one, which began first, has waited for the task that
reads. -/
def closedMeanwhile : ConnectionSession :=
  let s := (replyingSlowly.start 0 .close).start 1 .close
  (s.advance? 1).getD s

/-- Both closings have returned, and the server has read what was written. -/
def closedTwice : ConnectionSession :=
  (settle advanceAny? 30 closedMeanwhile).happen (.deliver 40)

/-- A notification was sent on the connection that was closed twice. -/
def sentBehind : ConnectionSession :=
  settle advanceAny? 60
    ((settle advanceAny? 60 (closedTwice.start 2 (.notify .handshakeDone))).happen (.deliver 40))

private theorem Reachable.settle (reachable : Reachable s t) (fuel : Nat) :
    Reachable s (LanguageHub.settle advanceAny? fuel t) := by
  obtain ⟨h, run⟩ := reachable.run
  obtain ⟨_, run⟩ := run.settle fuel
  exact run.reachable

/-- The operation with the given number has succeeded. -/
def succeeded (s : ConnectionSession) (n : Nat) : Bool :=
  match s.tasks.state? n, s.tasks.answer? n with
  | none, some (.done (.ok ())) => true
  | _, _ => false

theorem ended_of_succeeded (h : s.succeeded n = true) : s.Ended n (.done (.ok ())) := by
  unfold succeeded at h
  split at h
  · next gone answered => exact ⟨gone, answered⟩
  · cases h

private theorem overlap_facts :
    0 ∉ replyingSlowly.numbers ∧ 1 ∉ (replyingSlowly.start 0 .close).numbers ∧
      (((replyingSlowly.start 0 .close).start 1 .close).advance? 1).isSome ∧
      closedMeanwhile.succeeded 1 ∧ closedTwice.closings = [] ∧ 2 ∉ closedTwice.numbers ∧
      sentBehind.succeeded 2 ∧
      sentBehind.connection.transport.sink.written =
        closedTwice.connection.transport.sink.written ++
          Frame.encode Notice.handshakeDone.encode := by
  decide +kernel

/-- There is a run in which a notification that begins after two closings have returned is sent: the
closings overlapped while the task that reads answered a request. -/
theorem exists_notice_behind_closing :
    ∃ (s₁ s t u : ConnectionSession) (n m : Nat),
      Reachable (overPipes 40 false) s₁ ∧ n ∉ s₁.numbers ∧
      Reachable (s₁.start n .close) s ∧ s.Ended n (.done (.ok ())) ∧
      Reachable s t ∧ t.closings = [] ∧ m ∉ t.numbers ∧
      Reachable (t.start m (.notify .handshakeDone)) u ∧ u.Ended m (.done (.ok ())) ∧
      u.connection.transport.sink.written = t.connection.transport.sink.written ++
        Frame.encode Notice.handshakeDone.encode := by
  obtain ⟨unused, unused', goesOn, returned, alone, fresh, sent, written⟩ := overlap_facts
  have replying : Reachable (overPipes 40 false) replyingSlowly :=
    (Reachable.refl.step (.event (overPipes 40 false) _)).settle 30
  have closed : Reachable ((replyingSlowly.start 0 .close).start 1 .close) closedMeanwhile := by
    obtain ⟨s, step⟩ := Option.isSome_iff_exists.mp goesOn
    have result : closedMeanwhile = s := by rw [closedMeanwhile, step, Option.getD_some]
    exact result ▸ Reachable.refl.step (.advance 1 step)
  have twice : Reachable closedMeanwhile closedTwice :=
    (Reachable.refl.settle 30).step (.event _ (.deliver 40))
  have behind : Reachable (closedTwice.start 2 (.notify .handshakeDone)) sentBehind :=
    ((Reachable.refl.settle 60).step (.event _ (.deliver 40))).settle 60
  exact ⟨replyingSlowly.start 0 .close, closedMeanwhile, closedTwice, sentBehind, 1, 2,
    replying.step (.start _ 0 .close unused), unused', closed, ended_of_succeeded returned, twice,
    alone, fresh, behind, ended_of_succeeded sent, written⟩

end ConnectionSession

end LanguageHub
