import LanguageHub.Proofs.Frame.Arriving
import LanguageHub.Proofs.Transport.Performing

/-!
# What reads answer, however the stream arrives

A read that is the only operation of a session either waits or ends with the answer that the bytes
call for, whatever comes later (`TransportSession.Quiet.perform_foreseen`). So it makes no
difference to a sequence of whole reads how their stream was cut into pieces
(`TransportSession.performAll_cut`).
-/

namespace LanguageHub

/-- The stream from the server is held, and these agents have asked for it. Whether it ends may be
open. -/
structure Transport.Held (t : Transport) (line : List Agent) : Prop where
  line_eq : t.readers.line = line
  held : t.hasSource = true
  solid : t.source.Solid

/-- The answer is this failure. -/
def TransportAnswer.FailsWith (answer : TransportAnswer) (f : Failure) : Prop :=
  match answer with
  | .bytes result => result = .error f
  | .line result => result = .error f
  | .frame result => result = .error f
  | .done result => result = .error f

/-! ### One step of a read -/

section Steps

variable {a : Agent} {t u : Transport} {later : Bytes} {ending : Ending}

namespace TransportTask

variable {task : TransportTask} {p : Progress TransportTask TransportAnswer}

/-- A read that takes a step takes the same step whatever comes later. -/
theorem stepTask_foreseen (whole : task.IsWhole) (held : t.hasSource = true)
    (allowed : t.source.inflow.Allows later ending)
    (step : TransportSession.stepTask a task t = some (p, u)) :
    TransportSession.stepTask a task (t.foreseen later ending) =
        some (p, u.foreseen later ending) ∧
      u.hasSource = true ∧ u.ending = t.ending := by
  have notGone : t.hasSource ≠ false := by simp [held]
  cases task with
  | write call => exact whole.elim
  | read call | readLine before call =>
    simp only [TransportSession.stepTask, Option.map_eq_some_iff] at step ⊢
    obtain ⟨⟨q, v⟩, hcall, he⟩ := step
    have kept : v.hasSource = t.hasSource := by rw [ReadCall.eq_of_step? hcall]
    obtain ⟨hending, ⟨gone, -⟩ | hforeseen⟩ := ReadCall.step?_foreseen allowed hcall
    · exact absurd gone notGone
    · cases q <;> cases he <;> exact ⟨⟨_, hforeseen, rfl⟩, kept.trans held, hending⟩
  | readFrame call =>
    simp only [TransportSession.stepTask, Option.map_eq_some_iff] at step ⊢
    obtain ⟨⟨q, v⟩, hcall, he⟩ := step
    have kept : v.hasSource = t.hasSource := by rw [FrameCall.eq_of_step? hcall]
    obtain ⟨hending, ⟨gone, -⟩ | hforeseen⟩ := FrameCall.step?_foreseen allowed hcall
    · exact absurd gone notGone
    · cases q <;> cases he <;> exact ⟨⟨_, hforeseen, rfl⟩, kept.trans held, hending⟩

/-- A read that has the first place in the line and takes no step waits for bytes. -/
theorem outcome_of_stepTask_eq_none (held : t.Held [a]) (whole : task.IsWhole)
    (stuck : TransportSession.stepTask a task t = none) :
    t.incoming = [] ∧ t.ending = .undecided ∧
      ∀ reason, (task.outcome [] (.failing reason)).1.FailsWith (.transport reason) := by
  cases task with
  | write call => exact whole.elim
  | read call | readLine before call =>
    have waits := ReadCall.outcome_of_step?_eq_none held.line_eq held.solid whole
      (Option.map_eq_none_iff.mp stuck)
    obtain ⟨hbytes, hending, hout⟩ := waits
    refine ⟨hbytes, hending, fun reason ↦ ?_⟩
    simp only [outcome, hout]
    rfl
  | readFrame call =>
    have waits := FrameCall.outcome_of_step?_eq_none held.line_eq held.solid whole
      (Option.map_eq_none_iff.mp stuck)
    obtain ⟨hbytes, hending, hout⟩ := waits
    refine ⟨hbytes, hending, fun reason ↦ ?_⟩
    simp only [outcome, hout]
    rfl

end TransportTask

end Steps

/-- A read of a line, of a number of bytes or of a frame. -/
def TransportRequest.IsWhole : TransportRequest → Prop
  | .readLine _ | .readExactly _ | .readFrame => True
  | _ => False

instance : DecidablePred TransportRequest.IsWhole
  | .readLine _ | .readExactly _ | .readFrame => .isTrue trivial
  | .read _ | .write _ | .close => .isFalse id

namespace TransportSession

/-! ### One read -/

/-- A session in which nothing is going on and whose operations had numbers below `n`. Its stream
from the server is held and may go on. -/
structure Quiet (s : TransportSession) (n : Nat) : Prop where
  running : s.tasks.running = []
  held : s.transport.Held []
  numbered : ∀ e ∈ s.tasks.answers, e.1 < n

/-- What holds of the only operation of a session in each of its steps, which leave less to be done,
and of its answer when it ends. -/
structure Carries (n : Nat) (during : TransportTask → Transport → Prop)
    (behind : TransportAnswer → Transport → Prop) : Prop where
  running : ∀ {task task' : TransportTask} {t u : Transport}, during task t →
    stepTask (.operation n) task t = some (.running task', u) →
      during task' u ∧ task'.measure u.incoming < task.measure t.incoming
  finished : ∀ {task : TransportTask} {answer : TransportAnswer} {t u : Transport}, during task t →
    stepTask (.operation n) task t = some (.finished answer, u) → behind answer u

variable {s t : TransportSession} {n : Nat} {during : TransportTask → Transport → Prop}
  {behind : TransportAnswer → Transport → Prop}

/-- The only operation of a session goes on until it waits or ends. -/
theorem Carries.settle (carries : Carries n during behind) {task : TransportTask}
    (hr : s.tasks.running = [(n, task)]) (start : during task s.transport) {fuel : Nat}
    (enough : task.measure s.transport.incoming < fuel) :
    let v := LanguageHub.settle advanceAny? fuel s
    (∃ task', v.tasks = ⟨[(n, task')], s.tasks.answers⟩ ∧ during task' v.transport ∧
        stepTask (.operation n) task' v.transport = none) ∨
      ∃ answer, v.tasks = ⟨[], s.tasks.answers ++ [(n, answer)]⟩ ∧ behind answer v.transport := by
  induction fuel generalizing s task with
  | zero => exact absurd enough (Nat.not_lt_zero _)
  | succ fuel ih =>
    rw [LanguageHub.settle]
    cases hstep : stepTask (.operation n) task s.transport with
    | none =>
      have waits : s.advanceAny? = none := by
        simp [advanceAny?, advance?, Tasks.numbers, Tasks.state?, hr, hstep]
      rw [waits]
      exact .inl ⟨task, by rw [← hr], start, hstep⟩
    | some next =>
      obtain ⟨p, u⟩ := next
      cases p with
      | running task' =>
        obtain ⟨onward, less⟩ := carries.running start hstep
        rw [advanceAny?_running hr hstep]
        exact ih (s := ⟨u, ⟨[(n, task')], s.tasks.answers⟩⟩) rfl onward (by simp only; omega)
      | finished answer =>
        rw [advanceAny?_finished hr hstep]
        simp only
        rw [settle_of_running_eq_nil rfl]
        exact .inr ⟨answer, rfl, carries.finished start hstep⟩

/-- A read is carried on until it waits, without an answer, or to its end. -/
theorem Carries.perform (carries : Carries n during behind) (hs : s.Quiet n)
    {r : TransportRequest} {task : TransportTask} {u : Transport}
    (begins : s.start n r = ⟨u, s.tasks.start n task⟩) (start : during task u)
    (light : task.measure u.incoming ≤ 3 * u.incoming.length + 1) :
    let v := s.perform n r
    (v.2 = none ∧ ∃ task', during task' v.1.transport ∧
        stepTask (.operation n) task' v.1.transport = none) ∨
      ∃ answer, v.2 = some answer ∧ behind answer v.1.transport ∧ v.1.tasks.running = [] ∧
        ∀ e ∈ v.1.tasks.answers, e.1 < n + 1 := by
  have htasks : (s.start n r).tasks = ⟨[(n, task)], s.tasks.answers⟩ := by
    rw [begins, Tasks.start, hs.running]
    rfl
  have htransport : (s.start n r).transport = u := by rw [begins]
  have enough : task.measure (s.start n r).transport.incoming < (s.start n r).stepBound := by
    have hbound : (s.start n r).stepBound = 8 * (toWrite task + 1 + (u.incoming.length + 1)) := by
      rw [stepBound, htasks, htransport]
      rfl
    rw [hbound, htransport]
    omega
  have hsettle := carries.settle (s := s.start n r) (by rw [htasks])
    (by rw [htransport]; exact start) enough
  rw [htasks] at hsettle
  simp only [TransportSession.perform, settled]
  obtain ⟨task', hwaits, hduring, stuck⟩ | ⟨answer, hends, hbehind⟩ := hsettle
  · -- An operation that waits has no answer yet.
    have none : s.tasks.answers.find? (·.1 == n) = none :=
      List.find?_eq_none.mpr fun e he ↦ by simpa using Nat.ne_of_lt (hs.numbered e he)
    refine .inl ⟨?_, task', hduring, stuck⟩
    rw [hwaits, Tasks.answer?, none]
    rfl
  · refine .inr ⟨answer, ?_, hbehind, by rw [hends], ?_⟩
    · rw [hends, answer?_append_of_numbered hs.numbered]
    · rw [hends]
      intro e he
      rcases List.mem_append.mp he with he | he
      · exact Nat.lt_succ_of_lt (hs.numbered e he)
      · rw [List.mem_singleton.mp he]
        exact Nat.lt_succ_self n

/-- What a whole read keeps: it gives `target later ending` if these bytes are still to come and
the stream then ends like this. -/
private def Aims (before : Ending) (a : Agent)
    (target : Bytes → Ending → TransportAnswer × Bytes) (task : TransportTask) (t : Transport) :
    Prop :=
  task.IsWhole ∧ t.Held [a] ∧ t.ending = before ∧
    ∀ later ending, t.source.inflow.Allows later ending →
      task.outcome (t.incoming ++ later) ending = target later ending

private def Hits (before : Ending) (target : Bytes → Ending → TransportAnswer × Bytes)
    (answer : TransportAnswer) (t : Transport) : Prop :=
  t.Held [] ∧ t.ending = before ∧ ∀ later ending, t.source.inflow.Allows later ending →
    target later ending = (answer, t.incoming ++ later)

private theorem carries_whole (before : Ending) (n : Nat)
    (target : Bytes → Ending → TransportAnswer × Bytes) :
    Carries n (Aims before (.operation n) target) (Hits before target) := by
  -- The step on the stream as it will have been, for every way in which it can go on.
  have foreseen {task : TransportTask} {t u : Transport}
      {p : Progress TransportTask TransportAnswer} (aims : Aims before (.operation n) target task t)
      (step : stepTask (.operation n) task t = some (p, u)) {later : Bytes} {ending : Ending}
      (allowed : t.source.inflow.Allows later ending) :
      u.hasSource = true ∧ u.ending = before ∧
        TransportTask.Fits (.operation n) task (t.foreseen later ending) p
          (u.foreseen later ending) := by
    obtain ⟨whole, held, hending, -⟩ := aims
    obtain ⟨hforeseen, kept, hu⟩ := TransportTask.stepTask_foreseen whole held.held allowed step
    have readable : (t.foreseen later ending).Readable [.operation n] :=
      Transport.readable_foreseen held.line_eq held.solid allowed.decided
    obtain ⟨p', u', hstep, -, fits⟩ := TransportTask.stepTask_fits readable whole
    rw [hforeseen] at hstep
    cases hstep
    exact ⟨kept, hu.trans hending, fits⟩
  constructor
  · intro task task' t u aims step
    obtain ⟨ending, possible⟩ := t.source.inflow.exists_allows (.inr (rfl : [] = []))
    obtain ⟨kept, hu, readable, whole, less, -⟩ := foreseen aims step possible
    simp only [Transport.incoming_foreseen, List.append_nil] at less
    refine ⟨⟨whole, ⟨readable.line_eq, kept, (u.source.solid_foreseen _ _).mp readable.solid⟩, hu,
      ?_⟩, less⟩
    intro later ending allowed
    have before' : t.source.inflow.Allows later ending := allowed.congr (aims.2.2.1.trans hu.symm)
    obtain ⟨-, -, -, -, -, same⟩ := foreseen aims step before'
    simp only [Transport.incoming_foreseen, Transport.ending_foreseen] at same
    rw [same, aims.2.2.2 later ending before']
  · intro task answer t u aims step
    obtain ⟨ending, possible⟩ := t.source.inflow.exists_allows (.inr (rfl : [] = []))
    obtain ⟨kept, hu, readable, -⟩ := foreseen aims step possible
    refine ⟨⟨readable.line_eq, kept, (u.source.solid_foreseen _ _).mp readable.solid⟩, hu, ?_⟩
    intro later ending allowed
    have before' : t.source.inflow.Allows later ending := allowed.congr (aims.2.2.1.trans hu.symm)
    obtain ⟨-, -, -, same⟩ := foreseen aims step before'
    simp only [Transport.incoming_foreseen, Transport.ending_foreseen] at same
    rw [← aims.2.2.2 later ending before', same]

/-- A whole read in a quiet session is carried on. -/
private theorem Quiet.perform_whole (hs : s.Quiet n) {r : TransportRequest} {task : TransportTask}
    (h : reading? r = some task) :
    let target := fun later ending ↦ task.outcome (s.transport.incoming ++ later) ending
    let v := s.perform n r
    (v.2 = none ∧ ∃ task', Aims s.transport.ending (.operation n) target task' v.1.transport ∧
        stepTask (.operation n) task' v.1.transport = none) ∨
      ∃ answer, v.2 = some answer ∧ Hits s.transport.ending target answer v.1.transport ∧
        v.1.tasks.running = [] ∧ ∀ e ∈ v.1.tasks.answers, e.1 < n + 1 := by
  intro target
  apply (carries_whole s.transport.ending n target).perform hs (start_eq h s n)
  · refine ⟨isWhole_of_reading? h, ⟨?_, hs.held.held, hs.held.solid⟩, rfl, fun _ _ _ ↦ rfl⟩
    rw [Lock.request, hs.held.line_eq]
    rfl
  · exact Nat.le_of_eq (measure_of_reading? h _)

/-- A whole read that is answered has the answer that the bytes call for, whatever comes later, and
leaves the bytes behind those that it took. -/
theorem Quiet.perform_foreseen (hs : s.Quiet n) {r : TransportRequest} {task : TransportTask}
    (h : reading? r = some task) {answer : TransportAnswer}
    (answered : s.perform n r = (t, some answer)) :
    t.Quiet (n + 1) ∧ t.transport.ending = s.transport.ending ∧
      ∀ later ending, s.transport.source.inflow.Allows later ending →
        task.outcome (s.transport.incoming ++ later) ending =
          (answer, t.transport.incoming ++ later) := by
  have carried := hs.perform_whole h
  simp only [answered] at carried
  obtain ⟨waits, -⟩ | ⟨answer', hanswer, ⟨held, hending, hits⟩, running, numbered⟩ := carried
  · cases waits
  · cases hanswer
    exact ⟨⟨running, held, numbered⟩, hending, fun later ending allowed ↦
      hits later ending (allowed.congr hending)⟩

/-- A whole read that waits has come to the end of what has arrived: it fails if the stream does. -/
theorem Quiet.perform_waits (hs : s.Quiet n) {r : TransportRequest} {task : TransportTask}
    (h : reading? r = some task) (waits : (s.perform n r).2 = none) :
    s.transport.ending = .undecided ∧ ∀ reason,
      (task.outcome s.transport.incoming (.failing reason)).1.FailsWith (.transport reason) := by
  obtain ⟨-, task', ⟨whole, held, hending, hits⟩, stuck⟩ | ⟨answer, hanswer, -⟩ :=
    hs.perform_whole h
  · obtain ⟨hbytes, hundecided, fails⟩ :=
      TransportTask.outcome_of_stepTask_eq_none held whole stuck
    refine ⟨hending.symm.trans hundecided, fun reason ↦ ?_⟩
    have failing := hits [] (.failing reason) ⟨by simp, .inl hundecided⟩
    simp only [hbytes, List.append_nil] at failing
    rw [← failing]
    exact fails reason
  · rw [waits] at hanswer
    cases hanswer

/-! ### Sequences of reads -/

/-- Do operations one after another, under the numbers from `n` on. The answer of an operation that
waits is absent. -/
def performAll (s : TransportSession) (n : Nat) :
    List TransportRequest → TransportSession × List (Option TransportAnswer)
  | [] => (s, [])
  | r :: requests =>
    let (t, answer) := s.perform n r
    let (u, answers) := t.performAll (n + 1) requests
    (u, answer :: answers)

/-- A session over a stream that comes in these pieces and then ends like this. -/
def overPieces (pieces : List Bytes) (ending : Ending) : TransportSession :=
  { transport := { source.inflow := .ofPieces pieces ending } }

/-- Such a session is quiet. -/
theorem quiet_overPieces (pieces : List Bytes) (ending : Ending) (n : Nat) :
    (overPieces pieces ending).Quiet n :=
  ⟨rfl, ⟨rfl, rfl, Inflow.solid_ofPieces pieces ending⟩, by simp [overPieces]⟩

/-- Such a session is idle if its stream has an end. -/
theorem idle_overPieces (pieces : List Bytes) {ending : Ending} (decided : ending ≠ .undecided)
    (n : Nat) : (overPieces pieces ending).Idle n :=
  ⟨rfl, ⟨rfl, rfl, Inflow.solid_ofPieces pieces ending, decided⟩, by simp [overPieces]⟩

/-- All the bytes are still to be read. -/
@[simp]
theorem incoming_overPieces (pieces : List Bytes) (ending : Ending) :
    (overPieces pieces ending).transport.incoming = pieces.flatten :=
  Inflow.toBytes_ofPieces pieces ending

/-- A whole read begins as a task that takes as many steps as it needs. -/
private theorem exists_reading? {r : TransportRequest} (whole : r.IsWhole) :
    ∃ task, reading? r = some task := by
  cases r with
  | readLine | readExactly | readFrame => exact ⟨_, rfl⟩
  | read | write | close => exact whole.elim

/-- Idle sessions with the same bytes to come answer whole reads alike. -/
theorem performAll_congr {s s' : TransportSession} {n : Nat} (hs : s.Idle n) (hs' : s'.Idle n)
    (bytes : s.transport.incoming = s'.transport.incoming)
    (ending : s.transport.ending = s'.transport.ending) {requests : List TransportRequest}
    (whole : ∀ r ∈ requests, r.IsWhole) :
    (s.performAll n requests).2 = (s'.performAll n requests).2 ∧
      (s.performAll n requests).1.transport.incoming =
        (s'.performAll n requests).1.transport.incoming ∧
      none ∉ (s.performAll n requests).2 := by
  induction requests generalizing s s' n with
  | nil => exact ⟨rfl, bytes, List.not_mem_nil⟩
  | cons r requests ih =>
    obtain ⟨task, htask⟩ := exists_reading? (whole r List.mem_cons_self)
    obtain ⟨t, hperform, hidle, hrest, hending⟩ := perform_eq hs htask
    obtain ⟨t', hperform', hidle', hrest', hending'⟩ := perform_eq hs' htask
    have bytes' : t.transport.incoming = t'.transport.incoming := by
      rw [hrest, hrest', bytes, ending]
    have ending' : t.transport.ending = t'.transport.ending := by
      rw [hending, hending', ending]
    obtain ⟨answers, left, given⟩ := ih hidle hidle' bytes' ending' fun q hq ↦
      whole q (List.mem_cons_of_mem r hq)
    simp only [performAll, hperform, hperform']
    refine ⟨by rw [answers, bytes, ending], left, ?_⟩
    simp [given]

/-- However a stream is cut into pieces, whole reads of it are answered alike, failures included,
and leave the same bytes. None of them waits. -/
theorem performAll_cut {pieces pieces' : List Bytes} (same : pieces.flatten = pieces'.flatten)
    {ending : Ending} (decided : ending ≠ .undecided) {requests : List TransportRequest}
    (whole : ∀ r ∈ requests, r.IsWhole) (n : Nat) :
    let done := (overPieces pieces ending).performAll n requests
    let done' := (overPieces pieces' ending).performAll n requests
    done.2 = done'.2 ∧ done.1.transport.incoming = done'.1.transport.incoming ∧ none ∉ done.2 := by
  apply performAll_congr (idle_overPieces pieces decided n) (idle_overPieces pieces' decided n)
  · rw [incoming_overPieces, incoming_overPieces, same]
  · rfl
  · exact whole

/-- A line with a character that a cut goes through, and a read that the stream breaks off. -/
theorem answers_across_cuts :
    let pieces : List Bytes := [[0x61], [0xC3, 0xA9, 0x0A], [0x62]]
    let pieces' : List Bytes := [[0x61, 0xC3], [0xA9, 0x0A, 0x62]]
    let requests : List TransportRequest := [.readLine "x", .readExactly 2, .readFrame]
    pieces.flatten = pieces'.flatten ∧ Ending.failing "reset" ≠ .undecided ∧
      (∀ r ∈ requests, r.IsWhole) ∧
      ((overPieces pieces' (.failing "reset")).performAll 0 requests).2 =
        [some (.line (.ok (4, "xaé\n"))), some (.bytes (.error (.transport "reset"))),
          some (.frame (.error (.transport "reset")))] := by
  have same : [[0x61], [0xC3, 0xA9, 0x0A], [0x62]].flatten =
      ([[0x61, 0xC3], [0xA9, 0x0A, 0x62]] : List Bytes).flatten := by decide
  have decided : Ending.failing "reset" ≠ .undecided := by decide
  have whole : ∀ r ∈ [TransportRequest.readLine "x", .readExactly 2, .readFrame], r.IsWhole := by
    decide
  refine ⟨same, decided, whole, ?_⟩
  rw [← (performAll_cut same decided whole 0).1]
  rfl

end TransportSession

end LanguageHub
