import LanguageHub.Proofs.Language
import LanguageHub.Proofs.Manager.Occurrences

/-!
# Languages of operations

An operation on the client of a language begins with the way to it and is about that language until
the client is obtained; no other operation is about a language, and none registers a client. The
languages of all tasks are normalized.
-/

namespace LanguageHub

/-- The language that a task is about to the others. -/
def Role.language? : Role → Option String
  | queued language | evicting language .. | admitted language | connecting language _ =>
    some language
  | idle | misplaced | stopping .. => none

/-- What a way has come to is about its language. -/
theorem Obtaining.eq_of_language? {language other : String} {p : Progress Obtaining Outcome}
    (about : (roleOf language p).language? = some other) : other = language := by
  rcases p with (_ | _ | _ | _) | _ <;> cases about <;> rfl

/-- The language of a request is normalized. -/
theorem ManagerRequest.normalize_eq {m : Manager} {r : ManagerRequest} {language : String}
    (spoken : r.language? m = some language) : Language.normalize language = language := by
  have routed {spelling path : String}
      (h : (m.route spelling path).toOption = some language) :
      Language.normalize language = language := by
    unfold Manager.route at h
    split at h
    · obtain rfl := Option.some.inj h
      exact Language.normalize_normalize _
    · cases h
  cases r with
  | opened | changed | saved | completion =>
    simp only [language?] at spoken
    exact routed spoken
  | client spelling =>
    obtain rfl := Option.some.inj spoken
    exact Language.normalize_normalize spelling
  | shutdown | stop | start => cases spoken

namespace ManagerTask

variable {m m' : Manager} {a : Agent} {now : Nat} {refusal : Refusal} {language : String}

/-! ### Operations on the client of a language -/

/-- What follows a way to a client registers nothing and is about its language at most. -/
theorem follow_spec (a : Agent) (language : String) (goal : Goal)
    (p : Progress Obtaining Obtaining.Outcome) (m : Manager) :
    (follow a language goal (p, m)).2.registry = m.registry ∧
      ∀ other, (roleOf (follow a language goal (p, m)).1).language? = some other →
        other = language := by
  rcases p with o | (f | i)
  · exact ⟨rfl, fun _ about ↦ Obtaining.eq_of_language? (p := .running o) about⟩
  · exact ⟨rfl, fun _ about ↦ by cases about⟩
  · obtain ⟨role, h⟩ := serve_spec a goal i m
    constructor
    · obtain h | ⟨c, d, -, -, h⟩ := h
      · simp only [follow, h]
      · simp only [follow, h]
        rfl
    · intro other about
      rw [follow, role] at about
      cases about

/-- An operation on the client of a language begins with the way to it. -/
theorem exists_start_eq_follow (a : Agent) (now : Nat) (refusal : Refusal) {r : ManagerRequest}
    (spoken : r.language? m = some language) :
    ∃ goal, start a now refusal r m =
      follow a language goal (Obtaining.start a now refusal language m) := by
  have routed {answer : Except Failure String} (h : answer.toOption = some language)
      (goal : Goal) : obtain a now refusal answer goal m =
        follow a language goal (Obtaining.start a now refusal language m) := by
    cases answer with
    | error f => cases h
    | ok L =>
      obtain rfl := Option.some.inj h
      rfl
  cases r with
  | opened | changed | saved | completion =>
    simp only [ManagerRequest.language?] at spoken
    simp only [start]
    exact ⟨_, routed spoken _⟩
  | client L =>
    simp only [ManagerRequest.language?, Option.some.injEq] at spoken
    simp only [start, obtain, spoken]
    exact ⟨_, rfl⟩
  | shutdown | stop | start => cases spoken

/-! ### Other operations -/

/-- What an operation has come to is about no language. -/
def Silent (p : Progress ManagerTask ManagerAnswer) : Prop := (roleOf p).language? = none

/-- The shutdown of a list of clients registers nothing and is about no language. -/
theorem silent_shutDownAll (a : Agent) (now : Nat) (is : List Nat) (m : Manager) :
    (shutDownAll a now is m).2.registry = m.registry ∧ Silent (shutDownAll a now is m).1 := by
  induction is generalizing m with
  | nil => exact ⟨rfl, rfl⟩
  | cons i others ih =>
    simp only [shutDownAll]
    split
    · exact ih m
    · split
      · exact ⟨rfl, rfl⟩
      · exact ih _

/-- An operation without a language registers nothing; the shutdown of all clients empties the
registry. -/
theorem silent_start (a : Agent) (now : Nat) (refusal : Refusal) {r : ManagerRequest}
    (unspoken : r.language? m = none)
    (managed : ∀ language command, r ≠ .start language command) :
    (start a now refusal r m).2.registry = (if r = .shutdown then .empty else m.registry) ∧
      Silent (start a now refusal r m).1 := by
  have routed {answer : Except Failure String} (h : answer.toOption = none) (goal : Goal) :
      (obtain a now refusal answer goal m).2.registry = m.registry ∧
        Silent (obtain a now refusal answer goal m).1 := by
    cases answer with
    | error f => exact ⟨rfl, rfl⟩
    | ok L => cases h
  cases r with
  | opened | changed | saved | completion =>
    simp only [ManagerRequest.language?] at unspoken
    simp only [start, reduceCtorEq, if_false]
    exact routed unspoken _
  | client => cases unspoken
  | shutdown => exact silent_shutDownAll a now _ _
  | stop i =>
    simp only [reduceCtorEq, if_false]
    exact silent_shutDownAll a now [i] m
  | start language command => exact absurd rfl (managed language command)

/-- A step of an operation that is not on the way to a client registers nothing and is about no
language. -/
theorem silent_of_step? {task : ManagerTask} {p : Progress ManagerTask ManagerAnswer}
    (other : ∀ L goal o, task ≠ .obtaining L goal o)
    (step : task.step? a now refusal m = some (p, m')) :
    m'.registry = m.registry ∧ Silent p := by
  cases task with
  | obtaining L goal o => exact absurd rfl (other L goal o)
  | document i call =>
    simp only [step?, Option.bind_eq_bind, Option.bind_eq_some_iff, Prod.exists] at step
    obtain ⟨c, -, q, d, -, h⟩ := step
    cases q <;> cases h <;> exact ⟨rfl, rfl⟩
  | completion i call =>
    simp only [step?, Option.bind_eq_bind, Option.bind_eq_some_iff, Prod.exists] at step
    obtain ⟨c, -, q, d, -, h⟩ := step
    cases q <;> cases h <;> exact ⟨rfl, rfl⟩
  | shutdown i k others =>
    simp only [step?, Option.bind_eq_bind, Option.bind_eq_some_iff, Prod.exists] at step
    obtain ⟨c, -, q, d, -, h⟩ := step
    cases q with
    | running k' =>
      cases h
      exact ⟨rfl, rfl⟩
    | finished _ =>
      have rest := silent_shutDownAll a now others (m.setClient i d)
      rw [Option.some.inj h] at rest
      exact rest
  | starting i k =>
    simp only [step?, Option.bind_eq_bind, Option.bind_eq_some_iff, Prod.exists] at step
    obtain ⟨c, -, q, d, -, h⟩ := step
    cases q <;> cases h <;> exact ⟨rfl, rfl⟩

end ManagerTask

namespace ManagerSession

variable {s₀ s : ManagerSession} {h : ManagerHistory}

/-- A task that is on the way to a client is about its language. -/
theorem Sound.language?_eq (sound : s.Sound) {n : Nat} {language : String} {o : Obtaining}
    (role : s.roles n = o.role language) : (s.roles n).language? = some language := by
  rw [role]
  cases o with
  | evicting | queued | connecting => rfl
  | displacing => exact absurd role (sound.inPlace n)

/-- The languages of the tasks of a run are normalized. -/
theorem Run.normalize_eq (run : Run s₀ h s) (new : s₀.IsNew) {n : Nat} {language : String}
    (about : (s.roles n).language? = some language) :
    Language.normalize language = language := by
  induction run generalizing n with
  | begins =>
    simp only [roles, Tasks.state?, new.running, List.find?_nil, Option.map_none,
      Option.elim_none] at about
    cases about
  | @moves h shown s t run next ih =>
    cases next with
    | start refusal k r fresh admitted managed =>
      rw [(s.start_eq refusal k r).2 fun h ↦ fresh (List.mem_append_left _ h),
        Function.update_apply] at about
      split at about
      · cases spoken : r.language? s.manager with
        | none =>
          rw [(ManagerTask.silent_start _ _ _ spoken managed).2] at about
          cases about
        | some spelling =>
          obtain ⟨goal, heq⟩ :=
            ManagerTask.exists_start_eq_follow (.operation k) s.now refusal spoken
          rw [heq] at about
          obtain rfl := (ManagerTask.follow_spec (.operation k) spelling goal _ _).2 _ about
          exact r.normalize_eq spoken
      · exact ih about
    | advance refusal k step =>
      obtain ⟨task, p, going, hstep, hroles⟩ := exists_of_advance? step
      rw [hroles, Function.update_apply] at about
      split at about
      · cases task with
        | obtaining L goal o =>
          simp only [ManagerTask.step?, Option.map_eq_some_iff, Prod.exists] at hstep
          obtain ⟨q, m, hway, heq⟩ := hstep
          have next := (ManagerTask.follow_spec (.operation k) L goal q m).2
          rw [heq] at next
          have same : language = L := next _ about
          subst same
          exact ih ((run.sound new).language?_eq (roles_of_going going))
        | document | completion | shutdown | starting =>
          rw [(ManagerTask.silent_of_step? (by simp) hstep).2] at about
          cases about
      · exact ih about
    | read i step =>
      obtain ⟨_, _, -, -, -, htasks⟩ := exists_of_advanceReading? step
      rw [roles_eq_of_tasks_eq htasks] at about
      exact ih about
    | event e =>
      rw [roles_eq_of_tasks_eq (s.manager_happen e).1] at about
      exact ih about

end ManagerSession

end LanguageHub
