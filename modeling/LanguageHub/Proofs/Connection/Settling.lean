import LanguageHub.Proofs.Connection.Serving

/-!
# Everything comes to rest

When the server has sent whole frames on an open connection, only finitely many steps are possible
before everything waits: the task that reads acts on each body once and takes finitely many steps
in between, and each operation has finitely many bytes to write.
-/

namespace LanguageHub

/-- More steps than a write can take. -/
def WriteCall.steps : WriteCall → Nat
  | queued data => data.length + 2
  | writing rest => rest.length + 1

/-- A write has steps to take. -/
theorem WriteCall.steps_pos (c : WriteCall) : 0 < c.steps := by
  cases c <;> simp [steps]

/-- A step of a write leaves fewer steps. -/
theorem WriteCall.steps_lt {a : Agent} {c d : WriteCall} {t u : Transport}
    (step : c.step? a t = some (.running d, u)) : d.steps < c.steps := by
  generalize hn : (Progress.running d, u) = next at step
  cases takes_of_step? step with
  | @opens data first held =>
    cases hn
    simp only [steps]
    omega
  | @sends rest left sink more write =>
    cases hn
    obtain ⟨-, -, rfl, hroom⟩ := Outflow.write?_eq_ok write
    have hlength := List.length_pos_iff.mpr more
    simp only [steps, List.length_drop]
    omega
  | refuses | fails | completes => cases hn

/-- More steps than an operation can take. -/
def ConnectionTask.steps : ConnectionTask → Nat
  | .call ⟨_, _, _, .sending c⟩ => c.steps + 1
  | .call ⟨_, _, _, .waiting _⟩ => 1
  | .notify c => c.steps
  | .close .awaitingReader => 2
  | .close .ready => 1

/-- An operation has steps to take. -/
theorem ConnectionTask.steps_pos (task : ConnectionTask) : 0 < task.steps := by
  cases task with
  | call k =>
    obtain ⟨id, ticket, limit, phase⟩ := k
    cases phase <;> simp [steps]
  | notify c => exact c.steps_pos
  | close k => cases k <;> simp [steps]

namespace Connection

/-- More steps than the task that reads can take before it acts on a body. -/
def readingSteps (c : Connection) : Nat :=
  match c.reading with
  | .fetching call => call.measure c.transport.incoming + 1
  | .replying call => call.steps + 3 * c.transport.incoming.length + 2
  | .ended => 0

variable {c d : Connection} {notice : Option ServerNotice} {bodies : List String}

/-- The steps of the task that reads depend on it and on its stream alone. -/
theorem Spares.readingSteps (spares : Spares c d) : d.readingSteps = c.readingSteps := by
  have hincoming : d.transport.incoming = c.transport.incoming :=
    congrArg Source.toBytes spares.source
  simp only [Connection.readingSteps, spares.reading, hincoming]

/-- A step that acts on no body leaves fewer steps. -/
theorem Awaits.readingSteps_lt (awaits : c.Awaits bodies [])
    (sized : ∀ b ∈ bodies, Frame.Sized b) (goesOn : c.transport.ending = .undecided)
    (silent : c.body? = none) (step : c.stepReading? = some (d, notice)) :
    d.readingSteps < c.readingSteps := by
  unfold stepReading? at step
  unfold body? at silent
  cases awaits with
  | ended stage =>
    rw [stage] at step
    cases step
  | @replying call stage line solid bytes =>
    have hsteps := call.steps_pos
    have hbefore : c.readingSteps = call.steps + 3 * c.transport.incoming.length + 2 := by
      simp only [readingSteps, stage]
    rw [stage] at step
    simp only at step
    rw [hbefore]
    split at step
    · cases step
      change 0 < _
      omega
    · split at step
      · cases step
      · next call' t hstep =>
        cases step
        have hlt := WriteCall.steps_lt hstep
        have hsource := (WriteCall.step?_source hstep).1
        have hincoming : t.incoming = c.transport.incoming := congrArg Source.toBytes hsource
        change call'.steps + 3 * t.incoming.length + 2 < _
        rw [hincoming]
        omega
      · next answer t hstep =>
        cases step
        have hsource := (WriteCall.step?_source hstep).1
        have hincoming : t.incoming = c.transport.incoming := congrArg Source.toBytes hsource
        change 3 * t.incoming.length + 2 * 0 + 1 + 1 < _
        rw [hincoming]
        omega
  | @fetching call stage line solid whole outcome =>
    have hbefore : c.readingSteps = call.measure c.transport.incoming + 1 := by
      simp only [readingSteps, stage]
    have allowed : c.transport.source.inflow.Allows [] .ended := ⟨by simp, .inl goesOn⟩
    rw [stage] at step silent
    simp only at step silent
    rw [hbefore]
    split at step
    · cases step
      exact Nat.succ_pos _
    · next going =>
      rw [if_neg going] at silent
      split at step
      · cases step
      · next call' t hstep =>
        cases step
        obtain ⟨_, h⟩ | ⟨-, -, hlt, -⟩ :=
          FrameCall.fits_of_step? line solid whole allowed hstep
        · cases h
        · simp only [Transport.incoming_foreseen, List.append_nil] at hlt
          change call'.measure t.incoming + 1 < _
          omega
      · next answer t hstep =>
        -- A read that gives no body is the last one.
        rw [hstep] at silent
        obtain ⟨body, -, rfl, -⟩ | ⟨-, last⟩ :=
          received_of_step? line solid whole outcome allowed sized hstep
        · cases silent
        · simp only [stage, Option.some.injEq] at step last
          rw [last] at step
          cases step
          exact Nat.succ_pos _

end Connection

namespace ConnectionSession

variable {capacity : Nat} {handlerFails : Bool} {sent : Bytes} {read : List String} {h : History}
  {s t : ConnectionSession} {n : Nat}

/-- A step of an operation leaves fewer steps. -/
theorem steps_stepTask? {task : ConnectionTask} {c d : Connection} {now : Nat}
    {next : ConnectionTask} (step : stepTask? n now task c = some (.running next, d)) :
    next.steps < task.steps := by
  cases task with
  | call k =>
    simp only [stepTask?, Option.map_eq_some_iff, Prod.exists] at step
    obtain ⟨q, e, hk, hp⟩ := step
    obtain ⟨id, ticket, limit, phase⟩ := k
    cases Call.takes_of_step? hk with
    | sends sending hcall =>
      cases hp
      cases sending
      have := WriteCall.steps_lt hcall
      simp only [ConnectionTask.steps]
      omega
    | @sent call _ sending hcall =>
      cases hp
      cases sending
      have := call.steps_pos
      simp only [ConnectionTask.steps]
      omega
    | unsent | answered | expires | lost => cases hp
  | notify call =>
    simp only [stepTask?, Connection.stepNotice?, Option.map_map, Option.map_eq_some_iff,
      Prod.exists] at step
    obtain ⟨q, u, hcall, hp⟩ := step
    cases q with
    | running call' =>
      cases hp
      exact WriteCall.steps_lt hcall
    | finished answer => cases hp
  | close k =>
    cases k with
    | awaitingReader =>
      simp only [stepTask?, Closing.step?] at step
      split at step
      · cases step
        simp only [ConnectionTask.steps]
        omega
      · cases step
    | ready => cases step

/-- The numbers of the operations that are going on are different. -/
theorem Run.nodup_numbers (run : Run (overPipes capacity handlerFails) h s) :
    s.tasks.numbers.Nodup := by
  induction run with
  | refl => exact List.nodup_nil
  | @start h s _ n r fresh ih =>
    have hnumber : n ∉ s.tasks.numbers := fun hn ↦ fresh (List.mem_append_left _ hn)
    have hstart : ∀ task, (s.tasks.start n task).numbers.Nodup := by
      intro task
      rw [Tasks.numbers_start]
      exact List.nodup_append.mpr ⟨ih, by simp, fun m hm k hk hmk ↦ by
        rw [List.mem_singleton.mp hk] at hmk
        exact hnumber (hmk ▸ hm)⟩
    cases r with
    | call request limit =>
      simp only [ConnectionSession.start]
      split
      · exact hstart _
      · rw [Tasks.numbers_finish]
        exact ih.filter _
    | notify notice => exact hstart _
    | close => exact hstart _
  | @advance h s t _ n step ih =>
    obtain ⟨task, progress, c, _, _, rfl⟩ := advance?_eq_some step
    cases progress with
    | running next =>
      simp only [record, Tasks.numbers_update]
      exact ih
    | finished answer =>
      simp only [record, Tasks.numbers_finish]
      exact ih.filter _
  | read _ step ih =>
    simp only [advanceReading?, Option.map_eq_some_iff, Prod.exists] at step
    obtain ⟨_, _, _, rfl⟩ := step
    exact ih
  | @event h s _ e ih =>
    have htasks : (s.happen e).tasks = s.tasks := by cases e <;> rfl
    rw [htasks]
    exact ih

/-- More steps than can be taken before the next body. -/
def stepsLeft (s : ConnectionSession) : Nat :=
  s.connection.readingSteps + s.tasks.weight ConnectionTask.steps

/-- A step of an operation leaves fewer steps. -/
theorem stepsLeft_advance (nodup : s.tasks.numbers.Nodup) (step : s.advance? n = some t) :
    t.stepsLeft < s.stepsLeft := by
  obtain ⟨task, progress, c, going, hstep, rfl⟩ := advance?_eq_some step
  have hreading := (moves_stepTask? hstep).spares.readingSteps
  have hpos := task.steps_pos
  simp only [stepsLeft, connection_record, hreading]
  cases progress with
  | running next =>
    have hlt := steps_stepTask? hstep
    have hweight := Tasks.weight_update nodup going next ConnectionTask.steps
    simp only [record]
    omega
  | finished answer =>
    have hweight := Tasks.weight_finish nodup going answer ConnectionTask.steps
    simp only [record]
    omega

/-- A step on an open connection. -/
theorem Serving.descends (serving : Serving capacity sent read h s) {bodies : List String}
    (sized : ∀ b ∈ bodies, Frame.Sized b) (frames : sent = bodies.flatMap Frame.encode)
    (step : s.advanceAny? = some t) : ∃ read' h', Serving capacity sent read' h' t ∧
      Prod.Lex (· < ·) (· < ·) (bodies.length - read'.length, t.stepsLeft)
        (bodies.length - read.length, s.stepsLeft) := by
  simp only [advanceAny?] at step
  split at step
  · next hread =>
    cases step
    obtain ⟨⟨rest, hrest, hawaits, -⟩, -⟩ := 
      serving.readsOn sized ((List.append_nil sent).trans frames)
    have serving' := serving.read hread
    refine ⟨_, _, serving', ?_⟩
    simp only [advanceReading?, Option.map_eq_some_iff, Prod.exists] at hread
    obtain ⟨d, notice, hstep, rfl⟩ := hread
    have sized' : ∀ b ∈ rest, Frame.Sized b := fun b hb ↦
      sized b (hrest ▸ List.mem_append_right _ hb)
    have goesOn := serving.isOpen.connection.transport.goesOn
    cases hbody : s.connection.body? with
    | none =>
      have hlt := hawaits.readingSteps_lt sized' goesOn hbody hstep
      rw [Option.toList_none, List.append_nil]
      apply Prod.Lex.right
      simp only [stepsLeft]
      omega
    | some body =>
      have allowed : s.connection.transport.source.inflow.Allows [] .ended :=
        ⟨by simp, .inl goesOn⟩
      obtain ⟨rest', hrest', -⟩ := hawaits.step sized' allowed hstep
      rw [hbody] at hrest'
      apply Prod.Lex.left
      rw [hrest, hrest']
      simp only [Option.toList_some, List.length_append, List.length_singleton]
      omega
  · obtain ⟨n, _, hadvance⟩ := List.exists_of_findSome?_eq_some step
    refine ⟨_, _, serving.advance n hadvance, ?_⟩
    exact Prod.Lex.right _ (stepsLeft_advance serving.run.nodup_numbers hadvance)

/-- When the server has sent whole frames on an open connection, everything comes to rest. -/
theorem Serving.exists_quiescent (serving : Serving capacity sent read h s) {bodies : List String}
    (sized : ∀ b ∈ bodies, Frame.Sized b) (frames : sent = bodies.flatMap Frame.encode) :
    ∃ fuel read' h', Serving capacity sent read' h' (settle advanceAny? fuel s) ∧
      (settle advanceAny? fuel s).Quiescent := by
  let Holds (s : ConnectionSession) (rank : Nat × Nat) : Prop :=
    ∃ read h, Serving capacity sent read h s ∧ (bodies.length - read.length, s.stepsLeft) = rank
  have wf : WellFounded (Prod.Lex (· < ·) (· < ·) : Nat × Nat → Nat × Nat → Prop) :=
    (Prod.lex Nat.lt_wfRel Nat.lt_wfRel).wf
  obtain ⟨fuel, -, ⟨read', h', serving', -⟩, stuck⟩ :=
    exists_settled wf advanceAny? Holds (by
      rintro s _ t ⟨read, h, serving, rfl⟩ step
      obtain ⟨read', h', serving', hlt⟩ := serving.descends sized frames step
      exact ⟨_, hlt, read', h', serving', rfl⟩) ⟨read, h, serving, rfl⟩
  exact ⟨fuel, read', h', serving', stuck⟩

end ConnectionSession

end LanguageHub
