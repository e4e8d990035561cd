import LanguageHub.Proofs.Frame.Reading
import LanguageHub.Transport.Session

/-!
# Reads of a transport, one after the other

A read that is the only operation of a session ends, and its answer is a function of the bytes that
come and of how the stream ends (`TransportSession.perform_eq`).
-/

namespace LanguageHub

namespace TransportTask

/-- The tasks that read as many steps as they need. -/
def IsWhole : TransportTask → Prop
  | read call => call.goal.IsWhole
  | readLine _ call => call.goal.IsWhole
  | readFrame call => call.call.goal.IsWhole
  | write _ => False

/-- At least as many steps as a read can take if so many bytes come. -/
def measure (task : TransportTask) (bytes : Bytes) : Nat :=
  match task with
  | read call => call.measure bytes
  | readLine _ call => call.measure bytes
  | readFrame call => call.measure bytes
  | write _ => 0

/-- The answer of a read and the bytes that it leaves. -/
def outcome (task : TransportTask) (bytes : Bytes) (ending : Ending) : TransportAnswer × Bytes :=
  match task with
  | read call =>
    let (answer, rest) := call.goal.outcome bytes ending
    (.bytes (answer.mapError .transport), rest)
  | readLine before call =>
    let (answer, rest) := call.goal.outcome bytes ending
    (.line ((answer.mapError .transport).bind (TransportSession.lineBehind before)), rest)
  | readFrame call =>
    let (answer, rest) := call.outcome bytes ending
    (.frame answer, rest)
  | write _ => (.done (.ok ()), bytes)

/-- What a step of a task leads to: it goes on with less to do and the same outcome, or it ends with
its outcome and passes the lock on. -/
def Fits (a : Agent) (task : TransportTask) (t : Transport)
    (p : Progress TransportTask TransportAnswer) (u : Transport) : Prop :=
  match p with
  | .running task' =>
    u.Readable [a] ∧ task'.IsWhole ∧ task'.measure u.incoming < task.measure t.incoming ∧
      task'.outcome u.incoming u.ending = task.outcome t.incoming t.ending
  | .finished answer => u.Readable [] ∧ task.outcome t.incoming t.ending = (answer, u.incoming)

/-- A task that reads undisturbed takes a step. -/
theorem stepTask_fits {a : Agent} {task : TransportTask} {t : Transport} (ht : t.Readable [a])
    (hw : task.IsWhole) :
    ∃ p u, TransportSession.stepTask a task t = some (p, u) ∧ u.ending = t.ending ∧
      Fits a task t p u := by
  cases task with
  | write call => exact hw.elim
  | read call =>
    obtain ⟨p, u, hstep, hend, hfits⟩ := ReadCall.step?_fits ht hw
    cases p with
    | running d =>
      obtain ⟨hu, hwhole, hlt, hout⟩ := hfits
      refine ⟨.running (.read d), u, by rw [TransportSession.stepTask, hstep]; rfl, hend, hu,
        hwhole, hlt, ?_⟩
      simp only [outcome, hout]
    | finished answer =>
      obtain ⟨hu, result, rfl, hout⟩ := hfits
      refine ⟨.finished _, u, by rw [TransportSession.stepTask, hstep]; rfl, hend, hu, ?_⟩
      simp only [outcome, hout]
  | readLine before call =>
    obtain ⟨p, u, hstep, hend, hfits⟩ := ReadCall.step?_fits ht hw
    cases p with
    | running d =>
      obtain ⟨hu, hwhole, hlt, hout⟩ := hfits
      refine ⟨.running (.readLine before d), u, by rw [TransportSession.stepTask, hstep]; rfl, hend,
        hu, hwhole, hlt, ?_⟩
      simp only [outcome, hout]
    | finished answer =>
      obtain ⟨hu, result, rfl, hout⟩ := hfits
      refine ⟨.finished _, u, by rw [TransportSession.stepTask, hstep]; rfl, hend, hu, ?_⟩
      simp only [outcome, hout]
  | readFrame call =>
    obtain ⟨p, u, hstep, hend, hfits⟩ := FrameCall.step?_fits ht hw
    cases p with
    | running d =>
      obtain ⟨hu, hwhole, hlt, hout⟩ := hfits
      refine ⟨.running (.readFrame d), u, by rw [TransportSession.stepTask, hstep]; rfl, hend, hu,
        hwhole, hlt, ?_⟩
      simp only [outcome, hout]
    | finished answer =>
      obtain ⟨hu, hout⟩ := hfits
      refine ⟨.finished _, u, by rw [TransportSession.stepTask, hstep]; rfl, hend, hu, ?_⟩
      simp only [outcome, hout]

end TransportTask

namespace TransportSession

/-- A step of the only operation of a session. -/
theorem advanceAny?_running {s : TransportSession} {n : Nat} {task task' : TransportTask}
    (hr : s.tasks.running = [(n, task)]) {u : Transport}
    (hstep : stepTask (.operation n) task s.transport = some (.running task', u)) :
    s.advanceAny? = some ⟨u, ⟨[(n, task')], s.tasks.answers⟩⟩ := by
  simp [advanceAny?, advance?, Tasks.numbers, Tasks.state?, Tasks.update, hr, hstep]

/-- The last step of the only operation of a session. -/
theorem advanceAny?_finished {s : TransportSession} {n : Nat} {task : TransportTask}
    (hr : s.tasks.running = [(n, task)]) {u : Transport} {answer : TransportAnswer}
    (hstep : stepTask (.operation n) task s.transport = some (.finished answer, u)) :
    s.advanceAny? = some ⟨u, ⟨[], s.tasks.answers ++ [(n, answer)]⟩⟩ := by
  simp [advanceAny?, advance?, Tasks.numbers, Tasks.state?, Tasks.finish, hr, hstep]

/-- A session in which nothing is going on stays as it is. -/
theorem settle_of_running_eq_nil {s : TransportSession} (h : s.tasks.running = [])
    (fuel : Nat) : settle advanceAny? fuel s = s := by
  have : s.advanceAny? = none := by simp [advanceAny?, Tasks.numbers, h]
  cases fuel with
  | zero => rfl
  | succ k => rw [settle, this]

/-- What is left of a session when its only operation, a read, has ended. -/
def After (s : TransportSession) (n : Nat) (task : TransportTask) (t : TransportSession) : Prop :=
  let (answer, rest) := task.outcome s.transport.incoming s.transport.ending
  t.tasks = ⟨[], s.tasks.answers ++ [(n, answer)]⟩ ∧ t.transport.Readable [] ∧
    t.transport.incoming = rest ∧ t.transport.ending = s.transport.ending

/-- The only read of a session goes on to its end. -/
theorem after_settle {s : TransportSession} {n : Nat} {task : TransportTask}
    (hr : s.tasks.running = [(n, task)]) (ht : s.transport.Readable [.operation n])
    (hw : task.IsWhole) {fuel : Nat} (hf : task.measure s.transport.incoming < fuel) :
    s.After n task (settle advanceAny? fuel s) := by
  induction fuel generalizing s task with
  | zero => exact absurd hf (Nat.not_lt_zero _)
  | succ fuel ih =>
    obtain ⟨p, u, hstep, hend, hfits⟩ := TransportTask.stepTask_fits ht hw
    cases p with
    | running task' =>
      obtain ⟨hu, hwhole, hlt, hout⟩ := hfits
      rw [settle, advanceAny?_running hr hstep]
      have := ih (s := ⟨u, ⟨[(n, task')], s.tasks.answers⟩⟩) rfl hu hwhole (by simp only; omega)
      simp only [After] at this ⊢
      rw [hout, hend] at this
      exact this
    | finished answer =>
      obtain ⟨hu, hout⟩ := hfits
      rw [settle, advanceAny?_finished hr hstep]
      simp only
      rw [settle_of_running_eq_nil rfl]
      simp only [After, hout]
      exact ⟨trivial, hu, trivial, hend⟩

/-- A session in which nothing is going on, whose stream from the server has an end, and whose
operations had numbers below `n`. -/
structure Idle (s : TransportSession) (n : Nat) : Prop where
  running : s.tasks.running = []
  readable : s.transport.Readable []
  numbered : ∀ e ∈ s.tasks.answers, e.1 < n

/-- The task that an operation begins as, if it reads as many steps as it needs. -/
def reading? : TransportRequest → Option TransportTask
  | .readLine before => some (.readLine before (.queued (.line [])))
  | .readExactly count => some (.read (.queued (.exactly count [])))
  | .readFrame => some (.readFrame (.inHeader "" (.queued (.line []))))
  | _ => none

/-- A whole read joins the line of readers. -/
theorem start_eq {r : TransportRequest} {task : TransportTask} (h : reading? r = some task)
    (s : TransportSession) (n : Nat) :
    s.start n r =
      ⟨{ s.transport with readers := s.transport.readers.request (.operation n) },
        s.tasks.start n task⟩ := by
  cases r <;> simp only [reading?, Option.some.injEq, reduceCtorEq] at h <;> subst h <;> rfl

/-- The task of a whole read takes as many steps as it needs. -/
theorem isWhole_of_reading? {r : TransportRequest} {task : TransportTask}
    (h : reading? r = some task) : task.IsWhole := by
  cases r <;> simp only [reading?, Option.some.injEq, reduceCtorEq] at h <;> subst h <;> trivial

/-- A whole read begins with as much to do as there are bytes. -/
theorem measure_of_reading? {r : TransportRequest} {task : TransportTask}
    (h : reading? r = some task) (bytes : Bytes) : task.measure bytes = 3 * bytes.length + 1 := by
  cases r <;> simp only [reading?, Option.some.injEq, reduceCtorEq] at h <;> subst h <;> rfl

/-- The answer under a new number. -/
theorem answer?_append_of_numbered {answers : List (Nat × TransportAnswer)} {n : Nat}
    (h : ∀ e ∈ answers, e.1 < n) (answer : TransportAnswer) :
    (⟨[], answers ++ [(n, answer)]⟩ : Tasks TransportTask TransportAnswer).answer? n =
      some answer := by
  have hnone : answers.find? (fun e ↦ e.1 == n) = none :=
    List.find?_eq_none.mpr fun e he ↦ by simpa using (Nat.ne_of_lt (h e he))
  simp [Tasks.answer?, List.find?_append, hnone]

/-- A read in an otherwise idle session answers as the bytes say, and the session is idle again. -/
theorem perform_eq {s : TransportSession} {n : Nat} (hs : s.Idle n) {r : TransportRequest}
    {task : TransportTask} (h : reading? r = some task) :
    ∃ t, s.perform n r =
        (t, some (task.outcome s.transport.incoming s.transport.ending).1) ∧ t.Idle (n + 1) ∧
      t.transport.incoming = (task.outcome s.transport.incoming s.transport.ending).2 ∧
      t.transport.ending = s.transport.ending := by
  let u := s.start n r
  have hu : u = ⟨{ s.transport with readers := s.transport.readers.request (.operation n) },
    ⟨[(n, task)], s.tasks.answers⟩⟩ := by
    rw [show u = _ from start_eq h s n, Tasks.start, hs.running]
    rfl
  have hread : u.transport.Readable [.operation n] := by
    have ht := hs.readable
    rw [hu]
    exact ⟨by rw [Lock.request, ht.line_eq]; rfl, ht.held, ht.solid, ht.decided⟩
  have hfuel : task.measure u.transport.incoming < u.stepBound := by
    have hbound : u.stepBound =
        8 * (toWrite task + 1 + (u.transport.source.toBytes.length + 1)) := by
      rw [stepBound, hu]
      rfl
    rw [measure_of_reading? h, hbound, Transport.incoming]
    omega
  have hafter := after_settle (by rw [hu]) hread (isWhole_of_reading? h) hfuel
  have hin : u.transport.incoming = s.transport.incoming := by rw [hu]; rfl
  have hend : u.transport.ending = s.transport.ending := by rw [hu]; rfl
  have hans : u.tasks.answers = s.tasks.answers := by rw [hu]
  simp only [After, hin, hend, hans] at hafter
  obtain ⟨htasks, hidle, hrest, hending⟩ := hafter
  refine ⟨settle advanceAny? u.stepBound u, ?_, ⟨by rw [htasks], hidle, ?_⟩, hrest, hending⟩
  · rw [perform]
    change (settle advanceAny? u.stepBound u, _) = _
    rw [show (s.start n r).settled = settle advanceAny? u.stepBound u from rfl, htasks,
      answer?_append_of_numbered hs.numbered]
  · rw [htasks]
    intro e he
    rcases List.mem_append.mp he with he | he
    · exact Nat.lt_succ_of_lt (hs.numbered e he)
    · rw [List.mem_singleton.mp he]
      exact Nat.lt_succ_self n

/-- The read of a frame in an otherwise idle session. -/
theorem perform_readFrame {s : TransportSession} {n : Nat} (hs : s.Idle n) :
    ∃ t, s.perform n .readFrame =
        (t, some (.frame (Frame.readBehind "" s.transport.incoming s.transport.ending).1)) ∧
      t.Idle (n + 1) ∧
      t.transport.incoming = (Frame.readBehind "" s.transport.incoming s.transport.ending).2 ∧
      t.transport.ending = s.transport.ending := by
  obtain ⟨t, hperform, hidle, hrest, hend⟩ := perform_eq hs (r := .readFrame) rfl
  have hout := FrameCall.outcome_start (.operation n) s.transport s.transport.incoming
    s.transport.ending
  refine ⟨t, ?_, hidle, ?_, hend⟩
  · rw [hperform, ← hout]
    rfl
  · rw [hrest, ← hout]
    rfl

end TransportSession

end LanguageHub
