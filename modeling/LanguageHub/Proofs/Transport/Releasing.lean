import LanguageHub.Proofs.Frame.Reading
import LanguageHub.Proofs.Tasks
import LanguageHub.Proofs.Transport.Wire
import LanguageHub.Transport.Session

/-!
# What a closed transport lets go of

A closing lets go of the streams that nobody uses at that moment. The stream to the server is left
to the writes that are going on or wait, and the last of them lets go of it, whatever else happens
(`TransportSession.sink_released`). The reads that are going on do not: the stream from the server
is held on to for good exactly if it was in use when the transport was closed
(`TransportSession.hasSource_after_close`).
-/

namespace LanguageHub

/-- A write that ends on a closed transport lets go of the stream. -/
theorem WriteCall.released_of_finish (a : Agent) (answer : Except Failure Unit) (t : Transport) :
    (finish a answer t).2.closed = true → (finish a answer t).2.hasSink = false := by
  unfold finish
  split
  · intro _
    rfl
  · next opened =>
    intro closed
    exact absurd closed opened

namespace TransportSession

variable {s₀ s t u : TransportSession} {n : Nat}

/-- What can come of a session. -/
inductive Reachable (s₀ : TransportSession) : TransportSession → Prop where
  | refl : Reachable s₀ s₀
  | step {s t : TransportSession} (before : Reachable s₀ s) (next : Step s t) : Reachable s₀ t

/-- A write with this number is going on. -/
def Writes (s : TransportSession) (n : Nat) : Prop := ∃ call, s.tasks.state? n = some (.write call)

/-! ### What a step does to the stream to the server -/

/-- The tasks behind a step of a write. -/
def tasksBehind (s : TransportSession) (n : Nat) :
    Progress WriteCall (Except Failure Unit) → Tasks TransportTask TransportAnswer
  | .running call => s.tasks.update n (.write call)
  | .finished answer => s.tasks.finish n (.done answer)

/-- What a step can be to the stream to the server and to those who write to it. -/
inductive OnSink (s t : TransportSession) : Prop where
  /-- Nobody writes and nothing is closed. -/
  | quiet (line : t.transport.writers = s.transport.writers)
      (closed : t.transport.closed = s.transport.closed)
      (held : t.transport.hasSink = s.transport.hasSink)
      (written : t.transport.sink.written = s.transport.sink.written)
      (same : ∀ m call, t.tasks.state? m = some (.write call) ↔
        s.tasks.state? m = some (.write call))
  | asks (n : Nat) (data : Bytes) (fresh : n ∉ s.tasks.numbers)
      (starts : t = s.start n (.write data))
  | closes (closed : t.transport = s.transport.close.2)
      (same : ∀ m call, t.tasks.state? m = some (.write call) ↔
        s.tasks.state? m = some (.write call))
  | goes (n : Nat) (call : WriteCall) (p : Progress WriteCall (Except Failure Unit))
      (going : s.tasks.state? n = some (.write call))
      (step : call.step? (.operation n) s.transport = some (p, t.transport))
      (tasks : t.tasks = s.tasksBehind n p)

/-- A task that is no write does not change who writes when it starts. -/
private theorem same_start {task : TransportTask} (fresh : n ∉ s.tasks.numbers)
    (other : ∀ call, task ≠ .write call) (m : Nat) (call : WriteCall) :
    (s.tasks.start n task).state? m = some (.write call) ↔
      s.tasks.state? m = some (.write call) := by
  rw [Tasks.state?_start fresh]
  by_cases hm : m = n
  · rw [if_pos hm, hm, Tasks.state?_eq_none_iff.mpr fresh]
    simp [other call]
  · rw [if_neg hm]

private theorem onSink_start (fresh : n ∉ s.tasks.numbers) (r : TransportRequest) :
    OnSink s (s.start n r) := by
  cases r with
  | read | readLine | readExactly | readFrame =>
    exact .quiet rfl rfl rfl rfl (same_start fresh (by simp))
  | write data => exact .asks n data fresh rfl
  | close =>
    refine .closes rfl fun m call ↦ ?_
    change (s.tasks.finish n _).state? m = _ ↔ _
    rw [Tasks.state?_finish]
    by_cases hm : m = n
    · rw [if_pos hm, hm, Tasks.state?_eq_none_iff.mpr fresh]
    · rw [if_neg hm]

/-- A task that is no write, and does not become one, does not change who writes. -/
private theorem same_update {task task' : TransportTask} (going : s.tasks.state? n = some task)
    (before : ∀ call, task ≠ .write call) (behind : ∀ call, task' ≠ .write call) (m : Nat)
    (call : WriteCall) : (s.tasks.update n task').state? m = some (.write call) ↔
      s.tasks.state? m = some (.write call) := by
  rw [Tasks.state?_update]
  by_cases hm : m = n
  · rw [if_pos hm, hm, going]
    simp [before call, behind call]
  · rw [if_neg hm]

private theorem same_finish {task : TransportTask} (going : s.tasks.state? n = some task)
    (before : ∀ call, task ≠ .write call) (answer : TransportAnswer) (m : Nat)
    (call : WriteCall) : (s.tasks.finish n answer).state? m = some (.write call) ↔
      s.tasks.state? m = some (.write call) := by
  rw [Tasks.state?_finish]
  by_cases hm : m = n
  · rw [if_pos hm, hm, going]
    simp [before call]
  · rw [if_neg hm]

/-- What a step of an operation is. -/
theorem exists_of_advance? (step : s.advance? n = some t) :
    ∃ task p u, s.tasks.state? n = some task ∧
      stepTask (.operation n) task s.transport = some (p, u) ∧
      t = match p with
        | .running task => ⟨u, s.tasks.update n task⟩
        | .finished answer => ⟨u, s.tasks.finish n answer⟩ := by
  simp only [advance?, Option.bind_eq_bind, Option.bind_eq_some_iff] at step
  obtain ⟨task, going, ⟨p, u⟩, hstep, ht⟩ := step
  cases p with
  | running task' => exact ⟨task, _, u, going, hstep, (Option.some.inj ht).symm⟩
  | finished answer => exact ⟨task, _, u, going, hstep, (Option.some.inj ht).symm⟩

/-- A step of a read leaves the stream to the server alone, and the read becomes no write. -/
private theorem read_of_stepTask {a : Agent} {task : TransportTask} {t u : Transport}
    {p : Progress TransportTask TransportAnswer} (read : ∀ call, task ≠ .write call)
    (step : stepTask a task t = some (p, u)) :
    u = { t with source := u.source, readers := u.readers } ∧
      ∀ task', p = .running task' → ∀ call, task' ≠ .write call := by
  cases task with
  | write call => exact absurd rfl (read call)
  | read call | readLine before call =>
    simp only [stepTask, Option.map_eq_some_iff] at step
    obtain ⟨⟨q, v⟩, hcall, he⟩ := step
    cases q <;> cases he <;> exact ⟨ReadCall.eq_of_step? hcall, by simp⟩
  | readFrame call =>
    simp only [stepTask, Option.map_eq_some_iff] at step
    obtain ⟨⟨q, v⟩, hcall, he⟩ := step
    cases q <;> cases he <;> exact ⟨FrameCall.eq_of_step? hcall, by simp⟩

private theorem onSink_advance (step : s.advance? n = some t) : OnSink s t := by
  obtain ⟨task, p, u, going, hstep, rfl⟩ := exists_of_advance? step
  by_cases write : ∃ call, task = .write call
  · obtain ⟨call, rfl⟩ := write
    simp only [stepTask, Option.map_eq_some_iff] at hstep
    obtain ⟨⟨q, v⟩, hcall, he⟩ := hstep
    cases q with
    | running call' => cases he; exact .goes n call _ going hcall rfl
    | finished answer => cases he; exact .goes n call _ going hcall rfl
  · have read : ∀ call, task ≠ .write call := fun call h ↦ write ⟨call, h⟩
    obtain ⟨hu, stays⟩ := read_of_stepTask read hstep
    cases p with
    | running task' =>
      refine .quiet ?_ ?_ ?_ ?_ (same_update going read (stays task' rfl))
      all_goals
        simp only
        rw [hu]
    | finished answer =>
      refine .quiet ?_ ?_ ?_ ?_ (same_finish going read answer)
      all_goals
        simp only
        rw [hu]

/-- Every step is one of these. -/
theorem Step.onSink (step : Step s t) : OnSink s t := by
  cases step with
  | start n r fresh =>
    exact onSink_start (fun mem ↦ fresh (List.mem_append_left _ mem)) r
  | advance n h => exact onSink_advance h
  | arrive piece => exact .quiet rfl rfl rfl rfl fun _ _ ↦ Iff.rfl
  | deliver count =>
    exact .quiet rfl rfl rfl (Outflow.written_deliver _ count) fun _ _ ↦ Iff.rfl

/-! ### Who lets go of the stream to the server -/

/-- Whoever is in the line of writers writes, the first of them may have begun, and a closed
transport that holds on to its stream has left it to them. -/
structure Attended (s : TransportSession) : Prop where
  inLine : ∀ a ∈ s.transport.writers.line, ∃ n, a = .operation n ∧ s.Writes n
  begun : ∀ n rest, s.tasks.state? n = some (.write (.writing rest)) →
    s.transport.writers.line.head? = some (.operation n) ∧ s.transport.hasSink = true
  left : s.transport.closed = true → s.transport.hasSink = true → s.transport.writers.line ≠ []

/-- Nobody writes in a session that begins. -/
theorem Attended.start (free : s.transport.writers.line = []) (opened : s.transport.closed = false)
    (idle : s.tasks.running = []) : s.Attended where
  inLine := by simp [free]
  begun := by simp [Tasks.state?, idle]
  left := by simp [opened]

/-- It is left to the writers as long as nobody of them does anything. -/
private theorem Attended.quiet (h : s.Attended)
    (line : t.transport.writers = s.transport.writers)
    (closed : t.transport.closed = s.transport.closed)
    (held : t.transport.hasSink = s.transport.hasSink)
    (same : ∀ m call, t.tasks.state? m = some (.write call) ↔
      s.tasks.state? m = some (.write call)) : t.Attended := by
  constructor
  · intro a ha
    obtain ⟨n, rfl, call, hcall⟩ := h.inLine a (line ▸ ha)
    exact ⟨n, rfl, call, (same n call).mpr hcall⟩
  · intro n rest hn
    rw [line, held]
    exact h.begun n rest ((same n _).mp hn)
  · rw [line, closed, held]
    exact h.left

/-- A writer joins the line. -/
private theorem Attended.asks (h : s.Attended) (fresh : n ∉ s.tasks.numbers) (data : Bytes) :
    (s.start n (.write data)).Attended := by
  have states : ∀ m, (s.start n (.write data)).tasks.state? m =
      if m = n then some (.write (.queued data)) else s.tasks.state? m :=
    Tasks.state?_start fresh _
  constructor
  · intro a ha
    rcases List.mem_append.mp ha with ha | ha
    · obtain ⟨m, rfl, call, hcall⟩ := h.inLine a ha
      refine ⟨m, rfl, call, ?_⟩
      rw [states, if_neg, hcall]
      rintro rfl
      rw [Tasks.state?_eq_none_iff.mpr fresh] at hcall
      cases hcall
    · exact ⟨n, List.mem_singleton.mp ha, .queued data, by rw [states, if_pos rfl]⟩
  · intro m rest hm
    rw [states] at hm
    split at hm
    · cases hm
    · obtain ⟨first, held⟩ := h.begun m rest hm
      refine ⟨?_, held⟩
      change (s.transport.writers.line ++ [_]).head? = _
      rw [List.head?_append, first]
      rfl
  · intro _ _
    exact List.append_ne_nil_of_right_ne_nil _ (List.cons_ne_nil _ _)

/-- A closing leaves the stream to those who write. -/
private theorem Attended.closes (h : s.Attended) (closed : t.transport = s.transport.close.2)
    (same : ∀ m call, t.tasks.state? m = some (.write call) ↔
      s.tasks.state? m = some (.write call)) : t.Attended := by
  by_cases already : s.transport.closed = true
  · have keeps : t.transport = s.transport := by rw [closed, Transport.close, if_pos already]
    apply h.quiet _ _ _ same
    · rw [keeps]
    · rw [keeps]
    · rw [keeps]
  · have line : t.transport.writers = s.transport.writers := by
      rw [closed, Transport.close, if_neg already]
      simp only
      split <;> rfl
    have held : t.transport.hasSink = (s.transport.hasSink && !s.transport.writers.isFree) := by
      rw [closed, Transport.close, if_neg already]
      simp only
      split
      · next both => simp [(Bool.and_eq_true_iff.mp both).2]
      · next both =>
        cases held : s.transport.hasSink with
        | false => simp
        | true => simpa [held] using both
    constructor
    · intro a ha
      obtain ⟨n, rfl, call, hcall⟩ := h.inLine a (line ▸ ha)
      exact ⟨n, rfl, call, (same n call).mpr hcall⟩
    · intro n rest hn
      obtain ⟨first, hold⟩ := h.begun n rest ((same n _).mp hn)
      refine ⟨line ▸ first, ?_⟩
      rw [held, hold, Lock.isFree]
      cases hline : s.transport.writers.line with
      | nil => simp [hline] at first
      | cons a rest => rfl
    · intro _ hold
      rw [held] at hold
      rw [line]
      simpa [Lock.isFree] using (Bool.and_eq_true_iff.mp hold).2

/-- A writer goes on with the stream in its hands. -/
private theorem Attended.goesOn (h : s.Attended) {call call' : WriteCall}
    (going : s.tasks.state? n = some (.write call))
    (first : s.transport.writers.line.head? = some (.operation n))
    (held : s.transport.hasSink = true) (tasks : t.tasks = s.tasks.update n (.write call'))
    (line : t.transport.writers = s.transport.writers)
    (hold : t.transport.hasSink = s.transport.hasSink) : t.Attended := by
  have states : ∀ m, t.tasks.state? m =
      if m = n then some (.write call') else s.tasks.state? m := by
    intro m
    rw [tasks, Tasks.state?_update, going]
    rfl
  constructor
  · intro a ha
    obtain ⟨m, rfl, other, hother⟩ := h.inLine a (line ▸ ha)
    by_cases hm : m = n
    · exact ⟨m, rfl, call', by rw [states, if_pos hm]⟩
    · exact ⟨m, rfl, other, by rw [states, if_neg hm, hother]⟩
  · intro m rest hm
    rw [line, hold]
    by_cases hmn : m = n
    · rw [hmn]
      exact ⟨first, held⟩
    · rw [states, if_neg hmn] at hm
      exact h.begun m rest hm
  · intro _ _ hnil
    rw [line] at hnil
    rw [hnil] at first
    cases first

/-- A writer leaves the line, of which it was the first. -/
private theorem Attended.leaves (h : s.Attended) {call : WriteCall} {answer : TransportAnswer}
    (going : s.tasks.state? n = some (.write call))
    (first : s.transport.writers.line.head? = some (.operation n))
    (tasks : t.tasks = s.tasks.finish n answer)
    (line : t.transport.writers = s.transport.writers.leave (.operation n))
    (released : t.transport.closed = true → t.transport.hasSink = false) : t.Attended := by
  have states : ∀ m, t.tasks.state? m = if m = n then none else s.tasks.state? m := by
    intro m
    rw [tasks, Tasks.state?_finish]
  constructor
  · intro a ha
    rw [line, Lock.leave, List.mem_filter] at ha
    obtain ⟨m, rfl, other, hother⟩ := h.inLine a ha.1
    refine ⟨m, rfl, other, ?_⟩
    rw [states, if_neg, hother]
    rintro rfl
    simp at ha
  · intro m rest hm
    rw [states] at hm
    split at hm
    · cases hm
    · next other =>
      -- Only the first in the line has begun.
      have := (h.begun m rest hm).1
      rw [first] at this
      cases this
      exact absurd rfl other
  · intro closed held
    rw [released closed] at held
    cases held

/-- A write goes on or ends. -/
private theorem Attended.goes (h : s.Attended) {call : WriteCall}
    {p : Progress WriteCall (Except Failure Unit)}
    (going : s.tasks.state? n = some (.write call))
    (step : call.step? (.operation n) s.transport = some (p, t.transport))
    (tasks : t.tasks = s.tasksBehind n p) : t.Attended := by
  have ends (answer : Except Failure Unit) {rest : Bytes}
      (writing : s.tasks.state? n = some (.write (.writing rest)))
      (hp : (p, t.transport) = WriteCall.finish (.operation n) answer s.transport) :
      t.Attended := by
    obtain ⟨rfl, ht⟩ := Prod.mk.inj hp
    apply h.leaves writing (h.begun n _ writing).1 tasks
    · rw [ht]
      exact (WriteCall.finish_spec _ answer s.transport).1
    · rw [ht]
      exact WriteCall.released_of_finish _ answer s.transport
  generalize hn : (p, t.transport) = next at step
  cases WriteCall.takes_of_step? step with
  | opens first held =>
    obtain ⟨rfl, ht⟩ := Prod.mk.inj hn
    apply h.goesOn going _ held tasks
    · rw [ht]
    · rw [ht]
    · simpa [Lock.isHeldBy] using first
  | refuses first gone =>
    obtain ⟨rfl, ht⟩ := Prod.mk.inj hn
    apply h.leaves going _ tasks
    · rw [ht]
    · intro _
      rw [ht]
      exact gone
    · simpa [Lock.isHeldBy] using first
  | sends more write =>
    obtain ⟨rfl, ht⟩ := Prod.mk.inj hn
    obtain ⟨first, held⟩ := h.begun n _ going
    apply h.goesOn going first held tasks
    · rw [ht]
    · rw [ht]
  | fails more write => exact ends _ going hn
  | completes => exact ends _ going hn

/-- It is left to the writers on every run. -/
theorem Attended.reachable (h : s.Attended) (run : Reachable s t) : t.Attended := by
  induction run with
  | refl => exact h
  | step before next ih =>
    cases next.onSink with
    | quiet line closed held written same => exact ih.quiet line closed held same
    | asks n data fresh starts =>
      rw [starts]
      exact ih.asks fresh data
    | closes closed same => exact ih.closes closed same
    | goes n call p going step tasks => exact ih.goes going step tasks

/-! ### The stream to the server is released -/

/-- A write on a transport that has let go of the stream can only fail. -/
private theorem Attended.refuses (h : s.Attended) (released : s.transport.hasSink = false)
    {call : WriteCall} {p : Progress WriteCall (Except Failure Unit)} {u : Transport}
    (going : s.tasks.state? n = some (.write call))
    (step : call.step? (.operation n) s.transport = some (p, u)) :
    p = .finished (.error .transportClosed) ∧ u.hasSink = false ∧ u.sink = s.transport.sink := by
  have notBegun (rest : Bytes) (hcall : call = .writing rest) : False := by
    have held := (h.begun n rest (hcall ▸ going)).2
    rw [released] at held
    cases held
  generalize hn : (p, u) = next at step
  cases WriteCall.takes_of_step? step with
  | opens first held =>
    rw [released] at held
    cases held
  | refuses first gone =>
    cases hn
    exact ⟨rfl, gone, rfl⟩
  | sends | fails | completes => exact (notBegun _ rfl).elim

/-- A step on a transport that has let go of the stream leaves the stream alone. -/
private theorem Attended.released_step (h : s.Attended) (released : s.transport.hasSink = false)
    (next : Step s t) : t.transport.hasSink = false ∧
      t.transport.sink.written = s.transport.sink.written := by
  cases next.onSink with
  | quiet line closed held written same => exact ⟨held.trans released, written⟩
  | asks n data fresh starts =>
    rw [starts]
    exact ⟨released, rfl⟩
  | closes closed same =>
    rw [closed, Transport.close]
    split
    · exact ⟨released, rfl⟩
    · simp [released]
  | goes n call p going step tasks =>
    obtain ⟨-, hgone, hsink⟩ := h.refuses released going step
    exact ⟨hgone, by rw [hsink]⟩

/-- Once a transport is closed and no write is going on, the stream to the server is let go for
good: nothing is written any more, and every later write fails. -/
theorem sink_released (free : s₀.transport.writers.line = [])
    (opened : s₀.transport.closed = false) (idle : s₀.tasks.running = [])
    (run : Reachable s₀ s) (closed : s.transport.closed = true) (ended : ∀ n, ¬ s.Writes n) :
    s.transport.hasSink = false ∧ ∀ t, Reachable s t → t.transport.hasSink = false ∧
      t.transport.sink.written = s.transport.sink.written ∧
      ∀ n u, t.Writes n → t.advance? n = some u →
        u.tasks.answers = t.tasks.answers ++ [(n, .done (.error .transportClosed))] := by
  have attended : s.Attended := (Attended.start free opened idle).reachable run
  have released : s.transport.hasSink = false := by
    rw [← Bool.not_eq_true]
    intro held
    obtain ⟨a, ha⟩ := List.exists_mem_of_ne_nil _ (attended.left closed held)
    obtain ⟨n, -, writes⟩ := attended.inLine a ha
    exact ended n writes
  refine ⟨released, fun t later ↦ ?_⟩
  have stays : t.transport.hasSink = false ∧
      t.transport.sink.written = s.transport.sink.written := by
    induction later with
    | refl => exact ⟨released, rfl⟩
    | step before next ih =>
      obtain ⟨gone, written⟩ := (attended.reachable before).released_step ih.1 next
      exact ⟨gone, written.trans ih.2⟩
  refine ⟨stays.1, stays.2, ?_⟩
  rintro n u ⟨call, going⟩ advances
  obtain ⟨task, p, v, hgoing, hstep, rfl⟩ := exists_of_advance? advances
  rw [going] at hgoing
  cases hgoing
  simp only [stepTask, Option.map_eq_some_iff] at hstep
  obtain ⟨⟨q, w⟩, hcall, he⟩ := hstep
  obtain ⟨rfl, -, -⟩ := (attended.reachable later).refuses stays.1 going hcall
  cases he
  rfl

/-! ### The stream from the server -/

/-- A step of an operation neither closes the transport nor lets go of the stream from the
server. -/
private theorem hasSource_of_stepTask {a : Agent} {task : TransportTask} {t u : Transport}
    {p : Progress TransportTask TransportAnswer} (step : stepTask a task t = some (p, u)) :
    u.closed = t.closed ∧ u.hasSource = t.hasSource := by
  by_cases write : ∃ call, task = .write call
  · obtain ⟨call, rfl⟩ := write
    simp only [stepTask, Option.map_eq_some_iff] at step
    obtain ⟨⟨q, v⟩, hcall, he⟩ := step
    have same : v.closed = t.closed ∧ v.hasSource = t.hasSource :=
      ⟨(WriteCall.lasts_of_step? hcall).1, (WriteCall.step?_source hcall).2.2⟩
    cases q <;> cases he <;> exact same
  · rw [(read_of_stepTask (fun call h ↦ write ⟨call, h⟩) step).1]
    exact ⟨rfl, rfl⟩

/-- A step on a closed transport neither opens it nor lets go of the stream from the server. -/
private theorem hasSource_of_step (closed : s.transport.closed = true) (next : Step s t) :
    t.transport.closed = true ∧ t.transport.hasSource = s.transport.hasSource := by
  cases next with
  | start n r fresh =>
    cases r with
    | read | readLine | readExactly | readFrame | write => exact ⟨closed, rfl⟩
    | close =>
      have same : (s.start n .close).transport = s.transport := by
        simp only [start, Transport.close, closed, if_true]
      rw [same]
      exact ⟨closed, rfl⟩
  | advance n h =>
    obtain ⟨task, p, u, -, hstep, rfl⟩ := exists_of_advance? h
    obtain ⟨hclosed, hsource⟩ := hasSource_of_stepTask hstep
    cases p with
    | running => exact ⟨hclosed.trans closed, hsource⟩
    | finished => exact ⟨hclosed.trans closed, hsource⟩
  | arrive | deliver => exact ⟨closed, rfl⟩

/-- A closed transport holds on to the stream from the server for good exactly if the stream was in
use when the transport was closed. -/
theorem hasSource_after_close (opened : s.transport.closed = false)
    (held : s.transport.hasSource = true) (n : Nat) (run : Reachable (s.start n .close) t) :
    t.transport.hasSource = true ↔ s.transport.readers.line ≠ [] := by
  have atOnce : (s.start n .close).transport.closed = true ∧
      (s.start n .close).transport.hasSource = !s.transport.readers.isFree := by
    simp only [start, Transport.close, opened, held]
    simp only [Bool.false_eq_true, if_false, Bool.true_and]
    split <;> exact ⟨rfl, rfl⟩
  have later : t.transport.closed = true ∧
      t.transport.hasSource = (s.start n .close).transport.hasSource := by
    induction run with
    | refl => exact ⟨atOnce.1, rfl⟩
    | step before next ih =>
      obtain ⟨closed, same⟩ := hasSource_of_step ih.1 next
      exact ⟨closed, same.trans ih.2⟩
  rw [later.2, atOnce.2, Lock.isFree]
  simp

/-- A read that waits for bytes. -/
def waiting : TransportSession :=
  { transport := { readers := ⟨[.operation 0]⟩ }
    tasks := ⟨[(0, .read (.reading (.upTo 1)))], []⟩ }

/-- What is left when the transport was closed before a byte arrived for the read. -/
def outlived : TransportSession :=
  { transport := { hasSink := false, closed := true, sink := { finished := true } }
    tasks := ⟨[], [(1, .done (.ok ())), (0, .bytes (.ok [0x61]))]⟩ }

/-- Although the transport is closed and nothing goes on any more, later reads are served. -/
theorem exists_source_behind_closing :
    Reachable { transport := {} } waiting ∧ Reachable (waiting.start 1 .close) outlived ∧
      ∃ s, Reachable outlived s ∧ s.transport.closed = true ∧
        (s.perform 2 (.read 1)).2 = some (.bytes (.ok [0x62])) := by
  refine ⟨?_, ?_, ?_⟩
  · apply Reachable.step (.step .refl (.start _ 0 (.read 1) (by decide)))
    exact .advance 0 rfl
  · apply Reachable.step (.step .refl (.arrive _ [0x61]))
    exact .advance 0 rfl
  · refine ⟨_, .step .refl (.arrive _ [0x62]), rfl, rfl⟩

end TransportSession

end LanguageHub
