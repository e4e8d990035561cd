import LanguageHub.Proofs.Client.Endings
import LanguageHub.Proofs.Client.Stages

/-!
# The life of a client

A client does nothing but its handshake until that has come to an end. If it fails, the client is
gone. If it succeeds, the client serves until the first shutdown begins; this one is the only one
that works, and when it has ended the client is gone. Whatever happens leads from each of these
states to itself or to the next (`Life.step`).
-/

namespace LanguageHub

/-! ### Handshakes -/

namespace Connecting

variable {a : Agent} {now : Nat} {c d : Client} {k : Connecting}
  {p : Progress Connecting (Except Failure Unit)}

/-- What a handshake has done to the client so far. Only one that has failed stops the task that
reads, and its failure is that of a handshake. -/
def Fits (c : Client) : Connecting → Prop
  | asking _ | confirming _ _ => c.connection.stopping = false
  | abandoning f k => (∃ reason, f = .handshake reason) ∧ k.Fits c

theorem exists_reason_failureOf (f : Failure) : ∃ reason, failureOf f = .handshake reason := by
  cases f <;> exact ⟨_, rfl⟩

/-- A handshake that goes on fits its client, which does not stand elsewhere. -/
def GoesOn (c : Client) (p : Progress Connecting (Except Failure Unit)) (d : Client) : Prop :=
  ∃ k, p = .running k ∧ k.Fits d ∧ d.phase = c.phase

/-- The failure of a handshake begins to end the client. -/
theorem goesOn_abandon (f : Failure) (going : c.connection.stopping = false) :
    GoesOn c (abandon f c).1 (abandon f c).2 := by
  obtain ⟨fits, phase⟩ := Termination.fits_start going
  exact ⟨_, rfl, ⟨exists_reason_failureOf f, fits⟩, phase⟩

/-- After the outcome of the first request the handshake goes on. -/
theorem goesOn_afterOutcome (a : Agent) (outcome : Outcome)
    (going : c.connection.stopping = false) :
    GoesOn c (afterOutcome a outcome c).1 (afterOutcome a outcome c).2 := by
  unfold afterOutcome
  split
  · exact goesOn_abandon _ going
  · exact ⟨_, rfl, going, rfl⟩

/-- A handshake that begins goes on. -/
theorem goesOn_start (a : Agent) (greeting : Request) (going : c.connection.stopping = false) :
    GoesOn c (start a greeting c).1 (start a greeting c).2 := by
  have same : (Call.start a greeting c.limit c.connection).2.stopping = false := by
    simp only [Call.start]
    split <;> exact going
  unfold start
  split
  · next hstart =>
    rw [hstart] at same
    exact ⟨_, rfl, same, rfl⟩
  · next outcome connection hstart =>
    rw [hstart] at same
    exact goesOn_afterOutcome (c := { c with connection }) a outcome same

/-- A handshake fits whatever happens beside it. -/
theorem Fits.aside (fits : k.Fits c) (aside : c.Aside d) : k.Fits d := by
  cases k with
  | asking | confirming => exact aside.going fits
  | abandoning f k => exact ⟨fits.1, Termination.Fits.onward fits.2 aside.onward⟩

/-- A step of a handshake leads to a handshake that fits, to a client that is ready, or to the end
of the client. -/
theorem Fits.step (fits : k.Fits c) (step : k.step? a now c = some (p, d)) :
    GoesOn c p d ∨ (p = .finished (.ok ()) ∧ d.phase = .ready ∧ d.connection.stopping = false) ∨
      ∃ reason, p = .finished (.error (.handshake reason)) ∧ d.Gone := by
  cases k with
  | asking call =>
    have calls {q : Progress Call Outcome} {connection : Connection}
        (hcall : call.step? a now c.connection = some (q, connection)) :
        connection.stopping = false := by
      cases Call.takes_of_step? hcall <;> exact fits
    simp only [step?] at step
    split at step
    · cases step
    · next hcall =>
      cases step
      exact .inl ⟨_, rfl, calls hcall, rfl⟩
    · next outcome connection hcall =>
      have next := goesOn_afterOutcome (c := { c with connection }) a outcome (calls hcall)
      rw [Option.some.inj step] at next
      exact .inl next
  | confirming server call =>
    have tells {q : Progress WriteCall (Except Failure Unit)} {e : Client}
        (hstep : c.stepNotice? a call = some (q, e)) :
        e.connection.stopping = false ∧ e.phase = c.phase := by
      obtain ⟨_, -, rfl⟩ := Client.spec_of_stepNotice? hstep
      exact ⟨fits, rfl⟩
    simp only [step?] at step
    split at step
    · cases step
    · next hstep =>
      cases step
      obtain ⟨going, phase⟩ := tells hstep
      exact .inl ⟨_, rfl, going, phase⟩
    · next hstep =>
      cases step
      exact .inr (.inl ⟨rfl, rfl, (tells hstep).1⟩)
    · next f e hstep =>
      obtain ⟨going, phase⟩ := tells hstep
      obtain ⟨k, hk, fits, same⟩ := goesOn_abandon f going
      rw [Option.some.inj step] at hk fits same
      exact .inl ⟨k, hk, fits, same.trans phase⟩
  | abandoning f k =>
    obtain ⟨⟨reason, rfl⟩, fits⟩ := fits
    simp only [step?] at step
    split at step
    · cases step
    · next hstep =>
      cases step
      exact .inl ⟨_, rfl, ⟨⟨reason, rfl⟩, fits.step hstep⟩, (Termination.spec_of_step? hstep).phase⟩
    · next e hstep =>
      cases step
      obtain ⟨phase, closed, process⟩ := fits.step hstep
      exact .inr (.inr ⟨reason, rfl, phase, closed.onward (.of_transport id rfl), process⟩)

end Connecting

namespace ClientSession

variable {s t : ClientSession} {n m latest : Nat}

/-! ### What happens beside the handshake and the shutdown -/

/-- The start of an operation with documents. -/
theorem aside_start {r : ClientRequest} (used : r.Serves) (n : Nat) :
    s.client.Aside (s.start n r).client := by
  obtain ⟨p, hstart, -, -⟩ := start_spec s n r
  obtain ⟨rests, -⟩ := ClientTask.serves_start used hstart
  exact ⟨onward_start s n r, rests.phase, rests.stopping.trans⟩

/-- A step of an operation with documents. -/
theorem aside_advance {task : ClientTask} (going : s.tasks.state? n = some task)
    (serves : task.Serves) (step : s.advance? n = some t) : s.client.Aside t.client := by
  obtain ⟨task', p, going', hstep, -, -⟩ := advance_spec step
  obtain rfl : task' = task := Option.some.inj (going'.symm.trans going)
  obtain ⟨rests, -⟩ := serves.step hstep
  exact ⟨onward_advance step, rests.phase, rests.stopping.trans⟩

/-- Something happens beside the operations. -/
structure Passes (s t : ClientSession) : Prop where
  aside : s.client.Aside t.client
  tasks : t.tasks = s.tasks
  now : s.now ≤ t.now

/-- A step of the task that reads. -/
theorem passes_read (step : s.advanceReading? = some t) : s.Passes t := by
  obtain ⟨⟨notice, reads⟩, tasks, now, stays, -⟩ := read_spec step
  exact ⟨⟨onward_read step, stays.phase, reads.stopping.trans⟩, tasks, now.ge⟩

/-- A step of the task that reads in which the callback panics. -/
theorem passes_callbackFails (step : s.advanceReading? = some t) : s.Passes t.endReading := by
  obtain ⟨⟨onward, phase, going⟩, tasks, now⟩ := passes_read step
  exact ⟨⟨onward.trans ⟨Connection.onward_endReading _, id⟩, phase, going⟩, tasks, now⟩

/-- What the other side, the clock, the process and the owner do. -/
theorem passes_event (s : ClientSession) (e : Event) : s.Passes (s.happen e) := by
  refine ⟨⟨onward_event s e, ?_, ?_⟩, ?_, ?_⟩
  · cases e <;> rfl
  · cases e <;> exact id
  · cases e <;> rfl
  · cases e with
    | tick time => exact Nat.le_add_right ..
    | _ => exact Nat.le_refl _

/-- An operation begins or goes on, or something happens beside the operations. -/
theorem Step.kind (next : Step s t) :
    (∃ n r, n ∉ s.numbers ∧ s.Admits r ∧ t = s.start n r) ∨ (∃ n, s.advance? n = some t) ∨
      s.Passes t := by
  cases next with
  | start n r fresh admitted => exact .inl ⟨n, r, fresh, admitted, rfl⟩
  | advance n step => exact .inr (.inl ⟨n, step⟩)
  | read step => exact .inr (.inr (passes_read step))
  | callbackFails step => exact .inr (.inr (passes_callbackFails step))
  | event e => exact .inr (.inr (passes_event s e))

/-! ### Stages -/

/-- A client that serves: nobody has begun to end it. -/
structure Serving (s : ClientSession) : Prop where
  connected : s.isConnected = true
  phase : s.client.phase = .ready
  going : s.client.connection.stopping = false
  tasks : s.tasks.All ClientTask.Serves

/-- A client that is shut down under a number. The shutdown tells the server until the time `latest`
at the latest, and no other shutdown is going on. -/
structure Leaving (latest n : Nat) (s : ClientSession) : Prop where
  connected : s.isConnected = true
  phase : s.client.phase = .shuttingDown
  going : ∃ k, s.tasks.state? n = some (.shutdown k) ∧ k.Fits latest s.client
  unanswered : s.tasks.answer? n = none
  others : ∀ m task, m ≠ n → s.tasks.state? m = some task → task.Serves

/-- A client that has been shut down. -/
structure Left (s : ClientSession) : Prop where
  connected : s.isConnected = true
  gone : s.client.Gone
  tasks : s.tasks.All ClientTask.Serves

/-- The stages in the life of a client. -/
inductive Life (s : ClientSession) : Prop where
  | fresh (tasks : s.tasks = {}) (phase : s.client.phase = .starting)
      (going : s.client.connection.stopping = false)
  | shaking {n : Nat} {k : Connecting} (tasks : s.tasks = handshakeOnly n (.running k))
      (phase : s.client.phase = .starting) (fits : k.Fits s.client)
  | failed {n : Nat} {reason : String}
      (tasks : s.tasks = handshakeOnly n (.finished (.error (.handshake reason))))
      (gone : s.client.Gone)
  | serving (serving : s.Serving)
  | leaving {n : Nat} (leaving : s.Leaving (s.now + Shutdown.patience.nanos) n)
  | left (left : s.Left)

/-! ### Other operations -/

/-- Operations keep their states when another one begins. -/
theorem state?_start_of_ne (fresh : n ∉ s.numbers) (r : ClientRequest) (other : m ≠ n) :
    (s.start n r).tasks.state? m = s.tasks.state? m := by
  obtain ⟨p, -, -, tasks⟩ := start_spec s n r
  rw [tasks]
  cases p with
  | running task =>
    rw [Tasks.state?_start (fun hn ↦ fresh (List.mem_append_left _ hn)), if_neg other]
  | finished answer => rw [Tasks.state?_finish, if_neg other]

/-- Operations keep their answers when another one begins. -/
theorem answer?_start_of_ne (s : ClientSession) (r : ClientRequest) (other : m ≠ n) :
    (s.start n r).tasks.answer? m = s.tasks.answer? m := by
  obtain ⟨p, -, -, tasks⟩ := start_spec s n r
  rw [tasks]
  cases p with
  | running task => rw [Tasks.answer?_start]
  | finished answer => rw [Tasks.answer?_finish, if_neg other, Option.or_none]

/-- Operations keep their states when another one goes on. -/
theorem state?_advance_of_ne (step : s.advance? n = some t) (other : m ≠ n) :
    t.tasks.state? m = s.tasks.state? m := by
  obtain ⟨_, p, -, -, -, tasks⟩ := advance_spec step
  rw [tasks]
  cases p with
  | running task => rw [Tasks.state?_update, if_neg other]
  | finished answer => rw [Tasks.state?_finish, if_neg other]

/-- Operations keep their answers when another one goes on. -/
theorem answer?_advance_of_ne (step : s.advance? n = some t) (other : m ≠ n) :
    t.tasks.answer? m = s.tasks.answer? m := by
  obtain ⟨_, p, -, -, -, tasks⟩ := advance_spec step
  rw [tasks]
  cases p with
  | running task => rw [Tasks.answer?_update]
  | finished answer => rw [Tasks.answer?_finish, if_neg other, Option.or_none]

/-- A client stays connected when an operation begins. -/
theorem isConnected_start (connected : s.isConnected = true) (n : Nat) (r : ClientRequest) :
    (s.start n r).isConnected = true := by
  obtain ⟨p, -, -, tasks⟩ := start_spec s n r
  rw [isConnected] at connected ⊢
  rw [tasks]
  cases p with
  | running => exact connected
  | finished => simp only [Tasks.finish, List.any_append, connected, Bool.true_or]

/-- A client stays connected when an operation goes on. -/
theorem isConnected_advance (connected : s.isConnected = true) (step : s.advance? n = some t) :
    t.isConnected = true := by
  obtain ⟨_, p, -, -, -, tasks⟩ := advance_spec step
  rw [isConnected] at connected ⊢
  rw [tasks]
  cases p with
  | running => exact connected
  | finished => simp only [Tasks.finish, List.any_append, connected, Bool.true_or]

/-- A client stays connected when something happens beside the operations. -/
theorem Passes.isConnected (passes : s.Passes t) (connected : s.isConnected = true) :
    t.isConnected = true := by
  rw [ClientSession.isConnected, passes.tasks, ← ClientSession.isConnected, connected]

/-- A client that is connected has used a number. -/
theorem numbers_ne_nil (connected : s.isConnected = true) : s.numbers ≠ [] := by
  intro none
  simp only [numbers, List.append_eq_nil_iff, List.map_eq_nil_iff] at none
  simp [isConnected, none.2] at connected

/-! ### While the client serves -/

namespace Serving

/-- What happens beside the operations leaves the client serving. -/
theorem passes (serving : s.Serving) (passes : s.Passes t) : t.Serving where
  connected := passes.isConnected serving.connected
  phase := passes.aside.phase.trans serving.phase
  going := passes.aside.going serving.going
  tasks := passes.tasks ▸ serving.tasks

/-- An operation with documents begins. -/
theorem start (serving : s.Serving) (fresh : n ∉ s.numbers) {r : ClientRequest}
    (used : r.Serves) : (s.start n r).Serving := by
  have aside := aside_start (s := s) used n
  obtain ⟨p, hstart, -, tasks⟩ := start_spec s n r
  obtain ⟨-, next⟩ := ClientTask.serves_start used hstart
  exact ⟨isConnected_start serving.connected n r, aside.phase.trans serving.phase,
    aside.going serving.going, all_start serving.tasks fresh tasks next⟩

/-- An operation goes on. -/
theorem advance (serving : s.Serving) (step : s.advance? n = some t) : t.Serving := by
  obtain ⟨task, p, going, hstep, -, tasks⟩ := advance_spec step
  have serves := serving.tasks n task going
  have aside := aside_advance going serves step
  exact ⟨isConnected_advance serving.connected step, aside.phase.trans serving.phase,
    aside.going serving.going, all_advance serving.tasks tasks (serves.step hstep).2⟩

/-- The first shutdown begins. -/
theorem shutdown (serving : s.Serving) (fresh : n ∉ s.numbers) :
    (s.start n .shutdown).Leaving (s.now + Shutdown.patience.nanos) n := by
  obtain ⟨p, hstart, -, tasks⟩ := start_spec s n .shutdown
  obtain ⟨k, rfl, phase, fits⟩ : ∃ k, p = .running (.shutdown k) ∧
      (s.start n .shutdown).client.phase = .shuttingDown ∧
      k.Fits (s.now + Shutdown.patience.nanos) (s.start n .shutdown).client := by
    simp only [ClientTask.start] at hstart
    generalize hbegins : Shutdown.start (.operation n) s.now s.client = begun at hstart
    obtain ⟨q, d⟩ := begun
    obtain ⟨phase, k, rfl, fits⟩ := Shutdown.fits_start serving.phase serving.going hbegins
    cases hstart
    exact ⟨k, rfl, phase, fits⟩
  refine ⟨isConnected_start serving.connected n _, phase, ⟨k, ?_, fits⟩, ?_, ?_⟩
  · rw [tasks, Tasks.state?_start (fun hn ↦ fresh (List.mem_append_left _ hn)), if_pos rfl]
  · rw [tasks, Tasks.answer?_start, answer?_of_fresh fresh]
  · intro m task other hm
    rw [state?_start_of_ne fresh _ other] at hm
    exact serving.tasks m task hm

end Serving

/-! ### While the client is shut down -/

namespace Leaving

theorem mono {later : Nat} (leaving : s.Leaving latest n) (le : latest ≤ later) :
    s.Leaving later n := by
  obtain ⟨k, going, fits⟩ := leaving.going
  refine { leaving with going := ⟨k, going, ?_⟩ }
  cases k with
  | announcing => exact ⟨fits.1.trans le, fits.2⟩
  | terminating => exact fits

/-- What happens beside the shutdown leaves it going on. -/
theorem aside (leaving : s.Leaving latest n) (aside : s.client.Aside t.client)
    (connected : t.isConnected = true) (state : t.tasks.state? n = s.tasks.state? n)
    (answer : t.tasks.answer? n = s.tasks.answer? n)
    (others : ∀ m task, m ≠ n → t.tasks.state? m = some task → task.Serves) :
    t.Leaving latest n := by
  obtain ⟨k, going, fits⟩ := leaving.going
  exact ⟨connected, aside.phase.trans leaving.phase, ⟨k, state.trans going, fits.aside aside⟩,
    answer.trans leaving.unanswered, others⟩

/-- An operation with documents may begin. Another shutdown ends at once. -/
theorem start (leaving : s.Leaving latest n) (fresh : m ∉ s.numbers) {r : ClientRequest}
    (later : ∀ root, r ≠ .connect root) : (s.start m r).Leaving latest n := by
  obtain ⟨k, going, -⟩ := leaving.going
  have other : n ≠ m := by
    rintro rfl
    rw [state?_of_fresh fresh] at going
    cases going
  obtain ⟨p, hstart, -, tasks⟩ := start_spec s m r
  obtain ⟨aside, next⟩ : s.client.Aside (s.start m r).client ∧
      ∀ task, p = .running task → task.Serves := by
    cases r with
    | connect root => exact absurd rfl (later root)
    | document | completion =>
      exact ⟨aside_start (by exact trivial) m,
        (ClientTask.serves_start (by exact trivial) hstart).2⟩
    | shutdown =>
      simp only [ClientTask.start, Shutdown.start, leaving.phase, Prod.mk.injEq] at hstart
      obtain ⟨rfl, same⟩ := hstart
      rw [← same]
      exact ⟨⟨.refl _, rfl, id⟩, fun task h ↦ by cases h⟩
  refine leaving.aside aside (isConnected_start leaving.connected m r)
    (state?_start_of_ne fresh r other) (answer?_start_of_ne s r other) fun l task hl hstate ↦ ?_
  rw [tasks] at hstate
  cases p with
  | running new =>
    rw [Tasks.state?_start (fun hm ↦ fresh (List.mem_append_left _ hm))] at hstate
    split at hstate
    · exact next task (congrArg _ (Option.some.inj hstate))
    · exact leaving.others l task hl hstate
  | finished answer =>
    rw [Tasks.state?_finish] at hstate
    split at hstate
    · cases hstate
    · exact leaving.others l task hl hstate

/-- Another operation goes on. -/
theorem advance_other (leaving : s.Leaving latest n) (other : m ≠ n)
    (step : s.advance? m = some t) : t.Leaving latest n := by
  obtain ⟨task, p, going, hstep, -, tasks⟩ := advance_spec step
  have serves := leaving.others m task other going
  refine leaving.aside (aside_advance going serves step)
    (isConnected_advance leaving.connected step) (state?_advance_of_ne step other.symm)
    (answer?_advance_of_ne step other.symm) fun l next hl hstate ↦ ?_
  rw [tasks] at hstate
  cases p with
  | running new =>
    rw [Tasks.state?_update, going] at hstate
    split at hstate
    · obtain rfl := Option.some.inj hstate
      exact (serves.step hstep).2 _ rfl
    · exact leaving.others l next hl hstate
  | finished answer =>
    rw [Tasks.state?_finish] at hstate
    split at hstate
    · cases hstate
    · exact leaving.others l next hl hstate

/-- The shutdown goes on, or the client is gone. -/
theorem advance (leaving : s.Leaving latest n) (step : s.advance? n = some t) :
    t.Leaving latest n ∨ t.Left := by
  obtain ⟨task, p, going, hstep, -, tasks⟩ := advance_spec step
  obtain ⟨k, going', fits⟩ := leaving.going
  obtain rfl : task = .shutdown k := Option.some.inj (going.symm.trans going')
  have connected := isConnected_advance leaving.connected step
  simp only [ClientTask.step?, Option.map_eq_some_iff, Prod.exists] at hstep
  obtain ⟨q, d, hstep, he⟩ := hstep
  have next := fits.step hstep
  cases q with
  | running k' =>
    cases he
    refine .inl ⟨connected, next.2.trans leaving.phase, ⟨k', ?_, next.1⟩, ?_, ?_⟩
    · rw [tasks, Tasks.state?_update, if_pos rfl, going, Option.map_some]
    · rw [tasks, Tasks.answer?_update]
      exact leaving.unanswered
    · intro m other hm hstate
      rw [state?_advance_of_ne step hm] at hstate
      exact leaving.others m other hm hstate
  | finished =>
    cases he
    refine .inr ⟨connected, next, fun m other hstate ↦ ?_⟩
    rw [tasks, Tasks.state?_finish] at hstate
    split at hstate
    · cases hstate
    · next hm => exact leaving.others m other hm hstate

/-- Whatever happens, the shutdown goes on, or the client is gone. -/
theorem step (leaving : s.Leaving latest n) (next : Step s t) : t.Leaving latest n ∨ t.Left := by
  obtain ⟨m, r, fresh, admitted, rfl⟩ | ⟨m, step⟩ | passes := next.kind
  · refine .inl (leaving.start fresh ?_)
    rintro root rfl
    exact numbers_ne_nil leaving.connected admitted
  · by_cases other : m = n
    · exact leaving.advance (other ▸ step)
    · exact .inl (leaving.advance_other other step)
  · refine .inl (leaving.aside passes.aside (passes.isConnected leaving.connected) ?_ ?_ ?_)
    · rw [passes.tasks]
    · rw [passes.tasks]
    · rw [passes.tasks]
      exact leaving.others

end Leaving

/-! ### When the client is gone -/

/-- A client that has been shut down has been shut down for good. -/
theorem Left.step (left : s.Left) (next : Step s t) : t.Left := by
  obtain ⟨n, r, fresh, admitted, rfl⟩ | ⟨n, step⟩ | passes := next.kind
  · obtain ⟨p, hstart, -, tasks⟩ := start_spec s n r
    obtain ⟨phase, next⟩ : (s.start n r).client.phase = s.client.phase ∧
        ∀ task, p = .running task → task.Serves := by
      cases r with
      | connect root => exact absurd admitted (numbers_ne_nil left.connected)
      | document | completion =>
        obtain ⟨rests, serves⟩ := ClientTask.serves_start (by exact trivial) hstart
        exact ⟨rests.phase, serves⟩
      | shutdown =>
        simp only [ClientTask.start, Shutdown.start, left.gone.phase, Prod.mk.injEq] at hstart
        obtain ⟨rfl, same⟩ := hstart
        rw [← same]
        exact ⟨rfl, fun task h ↦ by cases h⟩
    exact ⟨isConnected_start left.connected n r, left.gone.onward (onward_start s n r) phase,
      all_start left.tasks fresh tasks next⟩
  · obtain ⟨task, p, going, hstep, -, tasks⟩ := advance_spec step
    have serves := left.tasks n task going
    have aside := aside_advance going serves step
    exact ⟨isConnected_advance left.connected step, left.gone.onward aside.onward aside.phase,
      all_advance left.tasks tasks (serves.step hstep).2⟩
  · exact ⟨passes.isConnected left.connected,
      left.gone.onward passes.aside.onward passes.aside.phase, passes.tasks ▸ left.tasks⟩

/-! ### The whole life -/

namespace Life

/-- What happens beside the operations leaves the client at its stage. -/
theorem passes (life : Life s) (passes : s.Passes t) : Life t := by
  have phase := passes.aside.phase
  cases life with
  | fresh new starting going =>
    exact .fresh (passes.tasks.trans new) (phase.trans starting) (passes.aside.going going)
  | shaking alone starting fits =>
    exact .shaking (passes.tasks.trans alone) (phase.trans starting) (fits.aside passes.aside)
  | failed alone gone =>
    exact .failed (passes.tasks.trans alone) (gone.onward passes.aside.onward phase)
  | serving serving => exact .serving (serving.passes passes)
  | @leaving n leaving =>
    have later := leaving.mono (Nat.add_le_add_right passes.now Shutdown.patience.nanos)
    refine .leaving (n := n) (later.aside passes.aside (passes.isConnected later.connected)
      ?_ ?_ ?_)
    · rw [passes.tasks]
    · rw [passes.tasks]
    · rw [passes.tasks]
      exact later.others
  | left left =>
    exact .left ⟨passes.isConnected left.connected, left.gone.onward passes.aside.onward phase,
      passes.tasks ▸ left.tasks⟩

/-- An operation begins. -/
theorem start (life : Life s) (fresh : n ∉ s.numbers) {r : ClientRequest}
    (admitted : s.Admits r) : Life (s.start n r) := by
  obtain ⟨p, hstart, now, -⟩ := start_spec s n r
  cases life with
  | fresh new starting going =>
    cases r with
    | document | completion | shutdown =>
      have connected : s.isConnected = false := by rw [isConnected, new]; rfl
      simp [Admits, connected] at admitted
    | connect root =>
      obtain ⟨p, hstart, tasks⟩ := start_connect new n root
      obtain ⟨k, hk, fits, phase⟩ := Connecting.goesOn_start (.operation n)
        (Connecting.greeting 0 (Uri.pathToUri "/" root)) going
      rw [hstart] at hk fits phase
      rw [show p = .running k from hk] at tasks
      exact .shaking tasks (phase.trans starting) fits
  | shaking alone => exact absurd admitted (not_admits alone (by simp) r)
  | failed alone => exact absurd admitted (not_admits alone (by simp) r)
  | serving serving =>
    cases r with
    | connect root => exact absurd admitted (numbers_ne_nil serving.connected)
    | document | completion => exact .serving (serving.start fresh (by exact trivial))
    | shutdown =>
      refine .leaving (n := n) ?_
      rw [now]
      exact serving.shutdown fresh
  | leaving leaving =>
    obtain leaving | left := leaving.step (.start s n r fresh admitted)
    · exact .leaving (now ▸ leaving)
    · exact .left left
  | left left => exact .left (left.step (.start s n r fresh admitted))

/-- An operation goes on. -/
theorem advance (life : Life s) (step : s.advance? n = some t) : Life t := by
  obtain ⟨task, _, going, -, now, -⟩ := advance_spec step
  cases life with
  | fresh new =>
    rw [new] at going
    cases going
  | shaking alone starting fits =>
    obtain ⟨rfl, p, hstep, tasks⟩ := advance_connect alone step
    obtain ⟨k, rfl, fits, phase⟩ | ⟨rfl, ready, going⟩ | ⟨reason, rfl, gone⟩ := fits.step hstep
    · exact .shaking tasks (phase.trans starting) fits
    · refine .serving ⟨?_, ready, going, fun m task hm ↦ ?_⟩
      · rw [isConnected, tasks]
        rfl
      · rw [tasks] at hm
        cases hm
    · exact .failed tasks gone
  | failed alone =>
    rw [alone] at going
    cases going
  | serving serving => exact .serving (serving.advance step)
  | leaving leaving =>
    obtain leaving | left := leaving.step (.advance n step)
    · exact .leaving (now ▸ leaving)
    · exact .left left
  | left left => exact .left (left.step (.advance n step))

/-- Whatever happens, the client goes on to the next stage of its life or stays at its own. -/
theorem step (life : Life s) (next : Step s t) : Life t := by
  obtain ⟨n, r, fresh, admitted, rfl⟩ | ⟨n, step⟩ | passes := next.kind
  · exact life.start fresh admitted
  · exact life.advance step
  · exact life.passes passes

/-- A client that is connected serves, is shut down, or has been shut down. -/
theorem of_connected (life : Life s) (connected : s.isConnected = true) :
    s.Serving ∨ (∃ n, s.Leaving (s.now + Shutdown.patience.nanos) n) ∨ s.Left := by
  have none : ∀ {n p}, s.tasks = handshakeOnly n p → p ≠ .finished (.ok ()) → False := by
    intro n p alone unfinished
    rw [isConnected_handshakeOnly alone unfinished] at connected
    cases connected
  cases life with
  | fresh new =>
    rw [isConnected, new] at connected
    cases connected
  | shaking alone => exact (none alone (by simp)).elim
  | failed alone => exact (none alone (by simp)).elim
  | serving serving => exact .inl serving
  | leaving leaving => exact .inr (.inl ⟨_, leaving⟩)
  | left left => exact .inr (.inr left)

end Life

/-- Whatever comes of a client is at a stage of its life. -/
theorem Reachable.life {language : String} {limit : Option Duration} {capacity : Nat}
    {installed : Bool} {child : Option Child}
    (reachable : Reachable (hosted language limit capacity installed child) s) : Life s := by
  induction reachable with
  | refl => exact .fresh rfl rfl rfl
  | step _ next ih => exact ih.step next

end ClientSession

end LanguageHub
