import LanguageHub.Proofs.Client.Readiness
import LanguageHub.Proofs.Connection.Calls

/-!
# Shutdowns

The first shutdown of a client that is connected tells the server for a while and then ends the
client, whatever the server does. Another one that begins meanwhile returns at once. So when a
shutdown has returned, the client has ended or the one that was at work when it began still is.
-/

namespace LanguageHub

/-- A call that has written its request goes on once the table is closed. -/
theorem Call.exists_step {k : Call} {c : Connection} (written : k.IsWritten)
    (tidy : c.table.Tidy) (closed : c.table.closed = true) (a : Agent) (now : Nat) :
    ∃ next, k.step? a now c = some next := by
  unfold IsWritten at written
  unfold step?
  split at written
  · next due waiting =>
    rw [waiting]
    simp only
    split
    · exact ⟨_, rfl⟩
    · next fate => exact absurd fate (tidy.fate?_ne_waiting closed _)
    · exact ⟨_, rfl⟩
  · next sending =>
    rw [sending]
    simp only [WriteCall.step?, WriteCall.finish]
    split
    · next hnone => cases hnone
    · exact ⟨_, rfl⟩
    · exact ⟨_, rfl⟩
    · exact ⟨_, rfl⟩
  · exact written.elim

namespace ClientSession

variable {s s₁ t u : ClientSession} {n m latest : Nat}

/-! ### When nothing can go on -/

/-- An operation that can go on takes a step. -/
theorem exists_advance {task : ClientTask} (going : s.tasks.state? n = some task)
    {next : Progress ClientTask ClientAnswer × Client}
    (step : task.step? n s.now s.client = some next) : ∃ t, s.advance? n = some t := by
  obtain ⟨p, c⟩ := next
  simp only [advance?, going, Option.bind_eq_bind, Option.bind_some, step]
  cases p <;> exact ⟨_, rfl⟩

namespace Quiescent

/-- Where everything has run, no operation takes a step. -/
theorem advance?_eq_none (quiescent : s.Quiescent) (n : Nat) : s.advance? n = none := by
  simp only [Quiescent, advanceAny?] at quiescent
  split at quiescent
  · cases quiescent
  · by_cases hn : n ∈ s.tasks.numbers
    · exact List.findSome?_eq_none_iff.mp quiescent n hn
    · simp [advance?, Tasks.state?_eq_none_iff.mpr hn]

/-- Where everything has run, the task that reads waits or has ended. -/
theorem stepReading?_eq_none (quiescent : s.Quiescent) :
    s.client.connection.stepReading? = none := by
  simp only [Quiescent, advanceAny?] at quiescent
  split at quiescent
  · cases quiescent
  · next stopped =>
    unfold advanceReading? at stopped
    split at stopped
    · next hstep =>
      unfold Client.stepReading? at hstep
      split at hstep
      · next hnone => exact hnone
      · cases hstep
      · cases hstep
    · cases stopped
    · cases stopped

/-- Where everything has run, no shutdown of a client without a process has had its time. -/
theorem not_leaving (quiescent : s.Quiescent) (late : latest ≤ s.now)
    (alone : s.client.ProcessGone) (leaving : s.Leaving latest n) : False := by
  obtain ⟨k, going, fits⟩ := leaving.going
  obtain ⟨⟨p, c⟩, hstep⟩ : ∃ next, k.step? (.operation n) s.now s.client = some next :=
    fits.exists_step late alone quiescent.stepReading?_eq_none
  obtain ⟨t, step⟩ := exists_advance going (by simp only [ClientTask.step?, hstep]; rfl)
  rw [quiescent.advance?_eq_none n] at step
  cases step

end Quiescent

/-! ### What comes of a shutdown -/

theorem Reachable.left (reachable : Reachable s t) (left : s.Left) : t.Left := by
  induction reachable with
  | refl => exact left
  | step _ next ih => exact ih.step next

theorem Reachable.leaving (reachable : Reachable s t) (leaving : s.Leaving latest n) :
    t.Leaving latest n ∨ t.Left := by
  induction reachable with
  | refl => exact .inl leaving
  | step _ next ih => exact ih.elim (·.step next) fun left ↦ .inr (left.step next)

/-- The operation with this number is a shutdown: it goes on or has returned. -/
def ShutsDown (n : Nat) (s : ClientSession) : Prop :=
  (∃ k, s.tasks.state? n = some (.shutdown k) ∧ s.tasks.answer? n = none) ∨
    s.tasks.answer? n = some (.done (.ok ()))

/-- A shutdown begins. -/
theorem shutsDown_start (fresh : n ∉ s.numbers) : (s.start n .shutdown).ShutsDown n := by
  obtain ⟨p, hstart, -, tasks⟩ := start_spec s n .shutdown
  have unanswered := answer?_of_fresh fresh
  simp only [ClientTask.start] at hstart
  split at hstart
  · next k c _ =>
    cases hstart
    refine .inl ⟨k, ?_, ?_⟩
    · rw [tasks, Tasks.state?_start (fun hn ↦ fresh (List.mem_append_left _ hn)), if_pos rfl]
    · rw [tasks, Tasks.answer?_start, unanswered]
  · cases hstart
    exact .inr (by rw [tasks, Tasks.answer?_finish, unanswered, if_pos rfl, Option.none_or])

/-- A shutdown that goes on is a shutdown, and it returns in the end. -/
private theorem shutsDown_advance {k : Shutdown} (going : s.tasks.state? n = some (.shutdown k))
    (unanswered : s.tasks.answer? n = none) (step : s.advance? n = some t) : t.ShutsDown n := by
  obtain ⟨task, p, going', hstep, -, tasks⟩ := advance_spec step
  obtain rfl : task = .shutdown k := Option.some.inj (going'.symm.trans going)
  simp only [ClientTask.step?, Option.map_eq_some_iff, Prod.exists] at hstep
  obtain ⟨q, c, -, he⟩ := hstep
  cases q with
  | running next =>
    cases he
    refine .inl ⟨next, ?_, ?_⟩
    · rw [tasks, Tasks.state?_update, if_pos rfl, going, Option.map_some]
    · rw [tasks, Tasks.answer?_update, unanswered]
  | finished =>
    cases he
    exact .inr (by rw [tasks, Tasks.answer?_finish, unanswered, if_pos rfl, Option.none_or])

/-- An answer stays. -/
theorem answer?_advance {answer : ClientAnswer} (answered : s.tasks.answer? n = some answer)
    (step : s.advance? m = some t) : t.tasks.answer? n = some answer := by
  obtain ⟨_, p, -, -, -, tasks⟩ := advance_spec step
  rw [tasks]
  cases p with
  | running => rw [Tasks.answer?_update, answered]
  | finished => rw [Tasks.answer?_finish, answered, Option.some_or]

/-- Whatever happens, a shutdown goes on or has returned. -/
theorem ShutsDown.step (shuts : s.ShutsDown n) (next : Step s t) : t.ShutsDown n := by
  obtain ⟨m, r, fresh, -, rfl⟩ | ⟨m, step⟩ | passes := next.kind
  · have other : n ≠ m := by
      rintro rfl
      obtain ⟨k, going, -⟩ | answered := shuts
      · rw [state?_of_fresh fresh] at going
        cases going
      · rw [answer?_of_fresh fresh] at answered
        cases answered
    rw [ShutsDown, state?_start_of_ne fresh r other, answer?_start_of_ne s r other]
    exact shuts
  · obtain ⟨k, going, unanswered⟩ | answered := shuts
    · by_cases other : n = m
      · exact shutsDown_advance going unanswered (other ▸ step)
      · exact .inl ⟨k, (state?_advance_of_ne step other).trans going,
          (answer?_advance_of_ne step other).trans unanswered⟩
    · exact .inr (answer?_advance answered step)
  · rw [ShutsDown, passes.tasks]
    exact shuts

theorem Reachable.shutsDown (reachable : Reachable s t) (shuts : s.ShutsDown n) :
    t.ShutsDown n := by
  induction reachable with
  | refl => exact shuts
  | step _ next ih => exact ih.step next

/-- When a shutdown of a client that is connected has begun, one is at work, or the client is gone.
It is the one that has begun, unless another one was at work. -/
theorem start_shutdown (life : Life s) (connected : s.isConnected = true) (fresh : n ∉ s.numbers) :
    (s.start n .shutdown).Left ∨
    ∃ m, (s.start n .shutdown).Leaving (s.now + Shutdown.patience.nanos) m ∧
      (m = n ∨ ∃ k, s.tasks.state? m = some (.shutdown k)) := by
  obtain serving | ⟨m, leaving⟩ | left := life.of_connected connected
  · exact .inr ⟨n, serving.shutdown fresh, .inl rfl⟩
  · obtain ⟨k, going, -⟩ := leaving.going
    exact .inr ⟨m, leaving.start fresh (fun _ ↦ ClientRequest.noConfusion), .inr ⟨k, going⟩⟩
  · exact .inl (left.step (.start s n .shutdown fresh connected))

variable {language : String} {limit : Option Duration} {capacity : Nat} {installed : Bool}
  {child : Option Child}

/-- Every ticket that waits stands in the table of the client. -/
theorem Reachable.tidy (reachable : Reachable (hosted language limit capacity installed child) s) :
    s.client.connection.table.Tidy :=
  reachable.onward.table.tidy .empty

/-- When a shutdown of a client without a process has had half a second and everything that can run
has run, it has returned, the client has ended, its connection is closed, and no call that has
written its request still waits. -/
theorem shutdown_returns
    (reachable : Reachable (hosted language limit capacity installed none) s₁)
    (connected : s₁.isConnected = true) (fresh : n ∉ s₁.numbers)
    (later : Reachable (s₁.start n .shutdown) s)
    (late : s₁.now + (Duration.ofMillis 500).nanos ≤ s.now) (quiescent : s.Quiescent) :
    s.tasks.answer? n = some (.done (.ok ())) ∧ s.client.state = .terminated ∧
      s.client.connection.isClosed = true ∧
      ∀ m k, s.tasks.state? m = some (.completion k) → ¬ k.IsWritten := by
  have started := reachable.step (.start s₁ n .shutdown fresh connected)
  have whole : Reachable (hosted language limit capacity installed none) s := started.trans later
  have alone : s.client.ProcessGone := whole.onward.gone fun _ h ↦ by cases h
  have left : s.Left := by
    obtain left | ⟨m, leaving, -⟩ := start_shutdown reachable.life connected fresh
    · exact later.left left
    · obtain leaving | left := later.leaving leaving
      · exact (quiescent.not_leaving late alone leaving).elim
      · exact left
  refine ⟨?_, ?_, left.gone.connection.isClosed, fun m k going written ↦ ?_⟩
  · obtain ⟨k, going, -⟩ | answered := later.shutsDown (shutsDown_start fresh)
    · exact (left.tasks n _ going).elim
    · exact answered
  · simp [Client.state, left.gone.phase]
  · obtain ⟨⟨p, c⟩, hstep⟩ :=
      k.exists_step written whole.tidy left.gone.connection.table (.operation m) s.now
    obtain ⟨next, hnext⟩ :
        ∃ next, (ClientTask.completion k).step? m s.now s.client = some next := by
      simp only [ClientTask.step?, Client.stepCompletion?, hstep]
      cases p <;> exact ⟨_, rfl⟩
    obtain ⟨t, step⟩ := exists_advance going hnext
    rw [quiescent.advance?_eq_none m] at step
    cases step

/-- A client whose server reads nothing. The request for completions fills the pipe and is
stuck. -/
def stuck : ClientSession :=
  settle advanceAny? 10 ((greeted 600 none).start 1 (.completion "file:///w/a.py" ⟨0, 0⟩))

/-- The client is shut down while it is stuck. -/
def unheard : ClientSession := settle advanceAny? 10 (stuck.start 2 .shutdown)

/-- Half a second later. -/
def unheardLater : ClientSession :=
  settle advanceAny? 30 (unheard.happen (.tick (.ofMillis 500)))

/-- All operations are admitted. The shutdown is stuck as well until its time is over, and another
one that begins meanwhile returns at once. -/
private theorem admits_unheard :
    (1 ∉ (greeted 600 none).numbers ∧ (greeted 600 none).isConnected) ∧
    (2 ∉ stuck.numbers ∧ stuck.isConnected ∧ stuck.client.phase = .ready) ∧
    (3 ∉ unheard.numbers ∧ unheard.isConnected ∧
      ((unheard.start 3 .shutdown).tasks.answer? 3).isSome ∧
      (unheard.start 3 .shutdown).client.state = .shuttingDown ∧
      (unheard.start 3 .shutdown).client.connection.isClosed = false) ∧
    stuck.now + (Duration.ofMillis 500).nanos ≤ unheardLater.now ∧
    unheardLater.advanceAny?.isNone ∧ (unheardLater.tasks.answer? 2).isSome := by
  decide +kernel

private theorem reachable_stuck : Reachable (hosted "python" none 600 true none) stuck := by
  obtain ⟨⟨fresh, connected⟩, -⟩ := admits_unheard
  obtain ⟨_, run⟩ := run_greeted 600 none
  obtain ⟨_, run⟩ :=
    (run.start 1 (.completion "file:///w/a.py" ⟨0, 0⟩) fresh connected).settle 10
  exact run.reachable

private theorem reachable_unheardLater : Reachable (stuck.start 2 .shutdown) unheardLater := by
  have begins : Run (stuck.start 2 .shutdown) [] [] _ := .refl
  obtain ⟨_, run⟩ := begins.settle 10
  obtain ⟨_, run⟩ := (run.event (.tick (.ofMillis 500))).settle 30
  exact run.reachable

/-- The shutdown of a client whose server reads nothing has returned half a second later. -/
theorem returned_unheardLater :
    Reachable (hosted "python" none 600 true none) stuck ∧ stuck.isConnected = true ∧
    Reachable (stuck.start 2 .shutdown) unheardLater ∧ unheardLater.Quiescent ∧
    unheardLater.tasks.answer? 2 = some (.done (.ok ())) ∧
    unheardLater.client.state = .terminated := by
  obtain ⟨-, ⟨fresh, connected, -⟩, -, late, quiescent, -⟩ := admits_unheard
  have quiescent : unheardLater.Quiescent := Option.isNone_iff_eq_none.mp quiescent
  obtain ⟨returned, ended, -, -⟩ := shutdown_returns reachable_stuck connected fresh
    reachable_unheardLater late quiescent
  exact ⟨reachable_stuck, connected, reachable_unheardLater, quiescent, returned, ended⟩

end ClientSession

end LanguageHub
