import LanguageHub.Proofs.Connection.Calls

/-!
# Deadlines of calls

The time that a call is given begins to run when its request is written. From then on it bounds
the call: once it has elapsed and everything has run, the call has returned, whatever the server
does. Before that nothing bounds the call: a pipe that nobody empties keeps it writing for ever.
-/

namespace LanguageHub.ConnectionSession

variable {s t s₀ s₁ : ConnectionSession} {n : Nat}

/-- The call with the given number goes on, and nobody has been given an answer under it. -/
structure Goes (s : ConnectionSession) (n : Nat) (k : Call) : Prop where
  going : s.tasks.state? n = some (.call k)
  unanswered : s.tasks.answer? n = none

/-- The call with the given number has returned an outcome. -/
structure Returned (s : ConnectionSession) (n : Nat) : Prop where
  gone : s.tasks.state? n = none
  answered : ∃ outcome, s.tasks.answer? n = some (.outcome outcome)

/-- The call with the given number still writes its request, or waits for its turn to do so. -/
def Sends (s : ConnectionSession) (n : Nat) : Prop :=
  ∃ k write, s.tasks.state? n = some (.call k) ∧ k.phase = .sending write

/-- A call with the limit `d` has returned, or it waits and gives up at `time` at the latest. -/
inductive EndsBy (s : ConnectionSession) (n : Nat) (d : Duration) (time : Nat) : Prop where
  | returned (returned : s.Returned n)
  | waits {k : Call} {due : Nat} (goes : s.Goes n k) (limited : k.limit = some d)
      (waiting : k.phase = .waiting (some due)) (early : due ≤ time)

theorem Goes.mem_numbers {k : Call} (goes : s.Goes n k) : n ∈ s.numbers :=
  mem_numbers_iff.mpr (.inl (by rw [goes.going]; exact Option.some_ne_none _))

theorem Returned.mem_numbers (returned : s.Returned n) : n ∈ s.numbers := by
  obtain ⟨outcome, answered⟩ := returned.answered
  exact mem_numbers_iff.mpr (.inr (by rw [answered]; exact Option.some_ne_none _))

/-! ### The steps of one call -/

/-- Whatever happens leaves an operation where it is, unless it is a step of this operation. The
clock does not go back. -/
theorem Step.keeps (next : Step s t) (used : n ∈ s.numbers) :
    s.now ≤ t.now ∧ (s.advance? n = some t ∨
      t.tasks.state? n = s.tasks.state? n ∧ t.tasks.answer? n = s.tasks.answer? n) := by
  cases next with
  | start m r fresh =>
    have other : n ≠ m := fun h ↦ fresh (h ▸ used)
    have hnumber : m ∉ s.tasks.numbers := Tasks.state?_eq_none_iff.mp (state?_of_fresh fresh)
    cases r with
    | call request limit =>
      simp only [ConnectionSession.start, Call.start]
      cases s.connection.table.register s.connection.nextId with
      | error f => simp [Tasks.state?_finish, Tasks.answer?_finish, other]
      | ok u => simp [Tasks.state?_start hnumber, other]
    | notify notice =>
      exact ⟨Nat.le_refl _, .inr ⟨(Tasks.state?_start hnumber _ n).trans (if_neg other), rfl⟩⟩
    | close =>
      exact ⟨Nat.le_refl _, .inr ⟨(Tasks.state?_start hnumber _ n).trans (if_neg other), rfl⟩⟩
  | advance m step =>
    by_cases other : n = m
    · subst other
      obtain ⟨_, progress, _, _, _, rfl⟩ := advance?_eq_some step
      exact ⟨by cases progress <;> exact Nat.le_refl _, .inl step⟩
    · obtain ⟨_, progress, _, _, _, rfl⟩ := advance?_eq_some step
      cases progress with
      | running next => simp [record, Tasks.state?_update, other]
      | finished answer => simp [record, Tasks.state?_finish, Tasks.answer?_finish, other]
  | read step =>
    obtain ⟨_, _, _, rfl⟩ := readingStep_of_advanceReading? step
    exact ⟨Nat.le_refl _, .inr ⟨rfl, rfl⟩⟩
  | event e =>
    cases e with
    | tick time => exact ⟨Nat.le_add_right _ _, .inr ⟨rfl, rfl⟩⟩
    | _ => exact ⟨Nat.le_refl _, .inr ⟨rfl, rfl⟩⟩

/-- A step of a call either goes on with it or returns an outcome. -/
theorem Goes.advance {k : Call} (goes : s.Goes n k) (step : s.advance? n = some t) :
    ∃ p c, k.Takes (.operation n) s.now s.connection p c ∧
      match p with
      | .running k' => t.Goes n k'
      | .finished _ => t.Returned n := by
  obtain ⟨task, progress, c, going, hstep, rfl⟩ := advance?_eq_some step
  rw [goes.going] at going
  cases going
  simp only [stepTask?, Option.map_eq_some_iff, Prod.exists] at hstep
  obtain ⟨p, d, hk, hp⟩ := hstep
  refine ⟨p, d, Call.takes_of_step? hk, ?_⟩
  cases p with
  | running k' =>
    cases hp
    exact ⟨by simp [record, Tasks.state?_update, goes.going], goes.unanswered⟩
  | finished outcome =>
    cases hp
    exact ⟨by simp [record, Tasks.state?_finish], outcome, by
      simp [record, Tasks.answer?_finish, goes.unanswered]⟩

/-- A call that has returned stays so. -/
theorem Returned.step (returned : s.Returned n) (next : Step s t) : t.Returned n := by
  obtain ⟨-, step | ⟨hstate, hanswer⟩⟩ := next.keeps returned.mem_numbers
  · rw [advance?, returned.gone] at step
    cases step
  · exact ⟨hstate ▸ returned.gone, hanswer ▸ returned.answered⟩

/-- A bound that a call has is kept. -/
theorem EndsBy.step {d : Duration} {time : Nat} (ends : s.EndsBy n d time) (next : Step s t) :
    t.EndsBy n d time := by
  cases ends with
  | returned returned => exact .returned (returned.step next)
  | waits goes limited waiting early =>
    obtain ⟨-, step | ⟨hstate, hanswer⟩⟩ := next.keeps goes.mem_numbers
    · obtain ⟨p, c, takes, hp⟩ := goes.advance step
      cases takes with
      | sends sending | sent sending | unsent sending => simp [waiting] at sending
      | answered | expires | lost => exact .returned hp
    · exact .waits ⟨hstate ▸ goes.going, hanswer ▸ goes.unanswered⟩ limited waiting early

/-- A bound that a call has is kept on every run. -/
theorem EndsBy.reachable {d : Duration} {time : Nat} (ends : s.EndsBy n d time)
    (reachable : Reachable s t) : t.EndsBy n d time := by
  induction reachable with
  | refl => exact ends
  | step _ next ih => exact ih.step next

/-- A bound may be put off. -/
theorem EndsBy.mono {d : Duration} {time later : Nat} (ends : s.EndsBy n d time)
    (le : time ≤ later) : s.EndsBy n d later := by
  cases ends with
  | returned returned => exact .returned returned
  | waits goes limited waiting early => exact .waits goes limited waiting (Nat.le_trans early le)

/-! ### From the beginning of a call to its end -/

/-- A call with a limit writes its request until the limit bounds it. -/
theorem Reachable.sends_or_endsBy {request : Request} {d : Duration} (fresh : n ∉ s₀.numbers)
    (reachable : Reachable (s₀.start n (.call request (some d))) s) :
    (∃ k write, s.Goes n k ∧ k.limit = some d ∧ k.phase = .sending write) ∨
      s.EndsBy n d (s.now + d.nanos) := by
  induction reachable with
  | refl =>
    have hnumber : n ∉ s₀.tasks.numbers := Tasks.state?_eq_none_iff.mp (state?_of_fresh fresh)
    simp only [start, Call.start]
    cases s₀.connection.table.register s₀.connection.nextId with
    | error f =>
      exact .inr (.returned ⟨by simp [Tasks.state?_finish], .error f, by
        simp [Tasks.answer?_finish, answer?_of_fresh fresh]⟩)
    | ok u =>
      have unanswered : s₀.tasks.answer? n = none := answer?_of_fresh fresh
      exact .inl ⟨_, _, ⟨by simp [Tasks.state?_start hnumber]; rfl, unanswered⟩, rfl, rfl⟩
  | @step s t _ next ih =>
    rcases ih with ⟨k, write, goes, limited, sending⟩ | ends
    · obtain ⟨-, step | ⟨hstate, hanswer⟩⟩ := next.keeps goes.mem_numbers
      · have hnow : t.now = s.now := by
          obtain ⟨_, progress, _, _, _, rfl⟩ := advance?_eq_some step
          cases progress <;> rfl
        obtain ⟨p, c, takes, hp⟩ := goes.advance step
        cases takes with
        | sends => exact .inl ⟨_, _, hp, limited, rfl⟩
        | sent =>
          have waiting : k.limit.map (fun d ↦ s.now + d.nanos) = some (s.now + d.nanos) := by
            rw [limited]
            rfl
          exact .inr (.waits hp limited (congrArg CallPhase.waiting waiting)
            (hnow ▸ Nat.le_refl _))
        | unsent => exact .inr (.returned hp)
        | answered waiting | expires waiting | lost waiting => simp [sending] at waiting
      · exact .inl ⟨k, write, ⟨hstate ▸ goes.going, hanswer ▸ goes.unanswered⟩, limited, sending⟩
    · have used : n ∈ s.numbers := by
        cases ends with
        | returned returned => exact returned.mem_numbers
        | waits goes => exact goes.mem_numbers
      have hnow := (next.keeps used).1
      exact .inr ((ends.step next).mono (Nat.add_le_add_right hnow _))

/-- A call whose time is over takes a step if it still waits. -/
theorem EndsBy.returned_of_quiescent {d : Duration} {time : Nat} (ends : s.EndsBy n d time)
    (quiescent : s.Quiescent) (late : time ≤ s.now) : s.Returned n := by
  cases ends with
  | returned returned => exact returned
  | @waits k due goes limited waiting early =>
    exfalso
    have stuck : k.step? (.operation n) s.now s.connection = none := by
      cases hstep : k.step? (.operation n) s.now s.connection with
      | none => rfl
      | some next =>
        have step := advance?_call goes.going hstep
        rw [quiescent.advance?_eq_none n] at step
        cases step
    have passed : due ≤ s.now := Nat.le_trans early late
    simp only [Call.step?, waiting, limited, if_pos passed] at stuck
    split at stuck <;> cases stuck

/-- A deadline bounds every call from the moment at which its request is written: once everything
has run and the limit has elapsed since then, the call has returned. -/
theorem returned_once_written {request : Request} {d : Duration} (fresh : n ∉ s₀.numbers)
    (begun : Reachable (s₀.start n (.call request (some d))) s₁) (written : ¬ s₁.Sends n)
    (later : Reachable s₁ s) (quiescent : s.Quiescent) (elapsed : s₁.now + d.nanos ≤ s.now) :
    s.Returned n := by
  rcases begun.sends_or_endsBy fresh with ⟨k, write, goes, -, sending⟩ | ends
  · exact absurd ⟨k, write, goes.going, sending⟩ written
  · exact (ends.reachable later).returned_of_quiescent quiescent elapsed

/-! ### A server that does not answer, and one that does not read -/

/-- A call that is given a tenth of a second, over pipes of the given size. -/
def limitedCall (capacity : Nat) : ConnectionSession :=
  settle advanceAny? 60 ((overPipes capacity false).start 0
    (.call (.completion "file:///a.py" ⟨0, 0⟩) (some (.ofMillis 100))))

/-- The same call after a second. -/
def limitedCallLater (capacity : Nat) : ConnectionSession :=
  settle advanceAny? 60 ((limitedCall capacity).happen (.tick (.ofMillis 1000)))

private theorem run_limitedCall (capacity : Nat) :
    Reachable ((overPipes capacity false).start 0
      (.call (.completion "file:///a.py" ⟨0, 0⟩) (some (.ofMillis 100)))) (limitedCall capacity) ∧
    Reachable (limitedCall capacity) (limitedCallLater capacity) := by
  have begun : Run ((overPipes capacity false).start 0
      (.call (.completion "file:///a.py" ⟨0, 0⟩) (some (.ofMillis 100)))) [] _ := .refl
  have later : Run (limitedCall capacity) [] _ := .refl
  obtain ⟨_, begun⟩ := begun.settle 60
  obtain ⟨_, later⟩ := (later.event (.tick (.ofMillis 1000))).settle 60
  exact ⟨begun.reachable, later.reachable⟩

/-- The call over a wide pipe has returned after a second, though the server does not answer. -/
theorem returned_limitedCall : (limitedCallLater 1000).Returned 0 := by
  obtain ⟨begun, later⟩ := run_limitedCall 1000
  refine returned_once_written (by decide) begun ?_ later
    (Option.isNone_iff_eq_none.mp (by decide +kernel)) (by decide +kernel)
  have waiting : (limitedCall 1000).tasks.state? 0 = some (.call ⟨1, 0, some (.ofMillis 100),
      .waiting (some 100000000)⟩) := by decide +kernel
  rintro ⟨k, write, going, sending⟩
  rw [waiting] at going
  cases going
  cases sending

/-- There is a run in which a call is still going on when everything has run and ten times its
limit has elapsed since it began: the server does not read, and the request does not fit into the
pipe. -/
theorem exists_call_past_its_deadline :
    ∃ (s₀ s : ConnectionSession) (n : Nat) (request : Request) (d : Duration),
      Reachable (overPipes 16 false) s₀ ∧ n ∉ s₀.numbers ∧
      Reachable (s₀.start n (.call request (some d))) s ∧ s.Quiescent ∧
      s₀.now + d.nanos ≤ s.now ∧ s.tasks.state? n ≠ none := by
  obtain ⟨begun, later⟩ := run_limitedCall 16
  have reachable : ∀ {t u v : ConnectionSession}, Reachable t u → Reachable u v → Reachable t v :=
    fun first second ↦ by
      induction second with
      | refl => exact first
      | step _ next ih => exact ih.step next
  refine ⟨overPipes 16 false, limitedCallLater 16, 0, _, _, .refl, by decide,
    reachable begun later, Option.isNone_iff_eq_none.mp (by decide +kernel), by decide +kernel,
    Option.isSome_iff_ne_none.mp (by decide +kernel)⟩

end LanguageHub.ConnectionSession
