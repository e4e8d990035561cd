import LanguageHub.Proofs.Manager.Keeping
import LanguageHub.Proofs.Tasks

/-!
# What happens on the ways to clients

A run of a manager with the occurrences that matter for the starts of clients: where a start
begins and where it succeeds, who obtains which client, and which clients are ready no more.
-/

namespace LanguageHub

/-- What happens on the way to a client of a language, or to a client. -/
inductive ManagerOccurrence where
  /-- The operation begins to start a client of the language. -/
  | began (task : Nat) (language : String)
  /-- The start has succeeded, and the client is registered. -/
  | registered (task : Nat) (language : String) (client : Nat)
  | obtained (task : Nat) (language : String) (client : Nat)
  /-- A client that was ready, or whose start has just succeeded, is not ready. -/
  | lost (language : String) (client : Nat)
  /-- All clients are to be shut down. -/
  | cleared
  deriving DecidableEq, Repr

/-- What has happened, in order. -/
abbrev ManagerHistory := List ManagerOccurrence

open ManagerOccurrence

/-- What a step of the way to a client shows, by the way before it and by what it comes to. A start
that is refused ends at once. -/
def Obtaining.shows (n : Nat) (language : String) (before : Option Obtaining) :
    Progress Obtaining Outcome → ManagerHistory
  | .running (.connecting ..) =>
    match before with
    | some (.connecting ..) => []
    | _ => [began n language]
  | .running (.displacing i ..) =>
    match before with
    | some (.connecting ..) => [registered n language i]
    | _ => []
  | .running _ => []
  | .finished (.error _) =>
    match before with
    | some .queued | some (.evicting true ..) => [began n language]
    | _ => []
  | .finished (.ok i) =>
    match before with
    | some (.connecting ..) => [registered n language i, obtained n language i]
    | _ => [obtained n language i]

/-- The normalized language whose client an operation is to obtain. -/
def ManagerRequest.language? (m : Manager) : ManagerRequest → Option String
  | opened language path _ | changed language path _ | saved language path _
  | completion language path _ => (m.route language path).toOption
  | client language => some (Language.normalize language)
  | shutdown | stop _ | start .. => none

namespace ManagerSession

/-- What the start of an operation shows. -/
def startShows (s : ManagerSession) (refusal : Refusal) (n : Nat) (r : ManagerRequest) :
    ManagerHistory :=
  match r.language? s.manager with
  | some language => Obtaining.shows n language none
      (Obtaining.start (.operation n) s.now refusal language s.manager).1
  | none => if r = .shutdown then [cleared] else []

/-- What a step of an operation shows. -/
def advanceShows (s : ManagerSession) (refusal : Refusal) (n : Nat) : ManagerHistory :=
  match s.tasks.state? n with
  | some (.obtaining language _ o) =>
    match o.step? (.operation n) s.now refusal language s.manager with
    | some (p, _) => Obtaining.shows n language (some o) p
    | none => []
  | _ => []

/-- The client with this number was ready, or its start has just succeeded. -/
def wasReady (s : ManagerSession) (shown : ManagerHistory) (i : Nat) : Bool :=
  (s.manager.client? i).any (·.isReady) || shown.any fun
    | registered _ _ j => j == i
    | _ => false

/-- The clients that are ready no more. -/
def losses (s : ManagerSession) (shown : ManagerHistory) (t : ManagerSession) : ManagerHistory :=
  (List.range t.manager.clients.length).filterMap fun i ↦
    match t.manager.client? i with
    | some c => if s.wasReady shown i && !c.isReady then some (lost c.language i) else none
    | none => none

/-- What may happen next, with what it shows, if no client is started that is not to be
registered. -/
inductive Moves (s : ManagerSession) : ManagerHistory → ManagerSession → Prop where
  | start (refusal : Refusal) (n : Nat) (r : ManagerRequest) (fresh : n ∉ s.numbers)
      (admitted : s.Admits r) (managed : ∀ language command, r ≠ .start language command) :
      Moves s (s.startShows refusal n r) (s.start refusal n r)
  | advance {t : ManagerSession} (refusal : Refusal) (n : Nat)
      (step : s.advance? refusal n = some t) : Moves s (s.advanceShows refusal n) t
  | read {t : ManagerSession} (i : Nat) (step : s.advanceReading? i = some t) : Moves s [] t
  | event (e : Event) : Moves s [] (s.happen e)

/-- What can come of a session, with what has happened. -/
inductive Run (s₀ : ManagerSession) : ManagerHistory → ManagerSession → Prop where
  | begins : Run s₀ [] s₀
  | moves {h shown : ManagerHistory} {s t : ManagerSession} (run : Run s₀ h s)
      (next : s.Moves shown t) : Run s₀ (h ++ shown ++ s.losses shown t) t

/-- Nothing was started and nothing is going on. -/
structure IsNew (s : ManagerSession) : Prop where
  clients : s.manager.clients = []
  registry : s.manager.registry = .empty
  running : s.tasks.running = []

/-- What the tasks are about. -/
def roles (s : ManagerSession) (n : Nat) : Role := (s.tasks.state? n).elim .idle (·.role)

/-- A run leads to what can come of a session. -/
theorem Run.reachable {s₀ s : ManagerSession} {h : ManagerHistory} (run : Run s₀ h s) :
    Reachable s₀ s := by
  induction run with
  | begins => exact .refl
  | moves _ next ih =>
    cases next with
    | start refusal n r fresh admitted => exact ih.step (.start _ refusal n r fresh admitted)
    | advance refusal n step => exact ih.step (.advance refusal n step)
    | read i step => exact ih.step (.read i step)
    | event e => exact ih.step (.event _ e)

/-! ### The roster along a run -/

variable {s₀ s t : ManagerSession} {h shown : ManagerHistory} {n i : Nat} {refusal : Refusal}

/-- A task that is going on is about what its state says. -/
theorem roles_of_going {task : ManagerTask} (going : s.tasks.state? n = some task) :
    s.roles n = task.role := by
  rw [roles, going]
  rfl

/-- Under a number that no task has, nothing is going on. -/
theorem roles_of_fresh (fresh : n ∉ s.tasks.numbers) : s.roles n = .idle := by
  rw [roles, Tasks.state?_eq_none_iff.mpr fresh]
  rfl

/-- The manager agrees with what its tasks are about. -/
def Sound (s : ManagerSession) : Prop := s.manager.Kept s.roles

/-- A new session is sound. -/
theorem IsNew.sound (new : s.IsNew) : s.Sound := by
  have nobody : ∀ n, s.roles n = .idle := by
    intro n
    simp [roles, Tasks.state?, new.running]
  have nothing : ∀ i, s.manager.client? i = none := by
    intro i
    simp [Manager.client?, new.clients]
  constructor
  · intro n L h
    rw [nobody n] at h
    cases h
  · intro n L h
    rw [nobody n] at h
    cases h
  · intro n h
    rw [nobody n] at h
    cases h
  · intro L i h
    rw [new.registry] at h
    cases h
  · intro n L i h
    rw [nobody n] at h
    cases h
  all_goals
    intro i c h
    rw [nothing i] at h
    cases h

/-- What the tasks are about depends on the tasks alone. -/
theorem roles_eq_of_tasks_eq (same : t.tasks = s.tasks) : t.roles = s.roles := by
  funext n
  simp only [roles, same]

/-- The start of an operation, and what it has come to. -/
theorem start_eq (s : ManagerSession) (refusal : Refusal) (n : Nat) (r : ManagerRequest) :
    (s.start refusal n r).manager =
        (ManagerTask.start (.operation n) s.now refusal r s.manager).2 ∧
      (n ∉ s.tasks.numbers → (s.start refusal n r).roles = Function.update s.roles n
        (ManagerTask.roleOf
          (ManagerTask.start (.operation n) s.now refusal r s.manager).1)) := by
  unfold start
  split
  · next task m hstart =>
    rw [hstart]
    refine ⟨rfl, fun fresh ↦ ?_⟩
    funext k
    rw [roles, Tasks.state?_start fresh, Function.update_apply]
    split <;> rfl
  · next answer m hstart =>
    rw [hstart]
    refine ⟨rfl, fun _ ↦ ?_⟩
    funext k
    rw [roles, Tasks.state?_finish, Function.update_apply]
    split <;> rfl

/-- A step of an operation, and what it has come to. -/
theorem exists_of_advance? (step : s.advance? refusal n = some t) :
    ∃ task p, s.tasks.state? n = some task ∧
      task.step? (.operation n) s.now refusal s.manager = some (p, t.manager) ∧
      t.roles = Function.update s.roles n (ManagerTask.roleOf p) := by
  simp only [advance?, Option.bind_eq_bind, Option.bind_eq_some_iff, Prod.exists] at step
  obtain ⟨task, going, p, m, hstep, h⟩ := step
  cases p with
  | running next =>
    cases h
    refine ⟨task, _, going, hstep, ?_⟩
    funext k
    rw [roles, Tasks.state?_update, Function.update_apply, going]
    split <;> rfl
  | finished answer =>
    cases h
    refine ⟨task, _, going, hstep, ?_⟩
    funext k
    rw [roles, Tasks.state?_finish, Function.update_apply]
    split <;> rfl

/-- A step of the task that reads leaves everything where it stands. -/
theorem exists_of_advanceReading? (step : s.advanceReading? i = some t) :
    ∃ c d, s.manager.client? i = some c ∧ Client.Stays c d ∧
      t.manager = s.manager.setClient i d ∧ t.tasks = s.tasks := by
  simp only [advanceReading?, Option.bind_eq_bind, Option.bind_eq_some_iff, Prod.exists] at step
  obtain ⟨c, client, d, event, hstep, h⟩ := step
  have stays := Client.stays_of_stepReading? hstep
  cases event with
  | none =>
    cases h
    exact ⟨c, d, client, stays, rfl, rfl⟩
  | some event =>
    cases h
    refine ⟨c, d, client, stays, ?_⟩
    cases event with
    | published uri diagnostics =>
      simp only [observe]
      split <;> exact ⟨rfl, rfl⟩
    | message level shown text => exact ⟨rfl, rfl⟩

/-- An event leaves everything where it stands. -/
theorem manager_happen (s : ManagerSession) (e : Event) :
    (s.happen e).tasks = s.tasks ∧ ((s.happen e).manager = s.manager ∨
      ∃ i c d, s.manager.client? i = some c ∧ Client.Stays c d ∧
        (s.happen e).manager = s.manager.setClient i d) := by
  cases e with
  | tick | setCallback => exact ⟨rfl, .inl rfl⟩
  | server i e =>
    simp only [happen, mapClient]
    split
    · next c client => exact ⟨rfl, .inr ⟨i, c, _, client, e.stays c, rfl⟩⟩
    · exact ⟨rfl, .inl rfl⟩

/-- Whatever happens keeps a session sound. -/
theorem Sound.moves (sound : s.Sound) (next : s.Moves shown t) : t.Sound := by
  unfold Sound at sound ⊢
  cases next with
  | start refusal n r fresh admitted managed =>
    have hn : n ∉ s.tasks.numbers := fun h ↦ fresh (List.mem_append_left _ h)
    obtain ⟨hmanager, hroles⟩ := s.start_eq refusal n r
    rw [hmanager, hroles hn]
    exact ManagerTask.kept_start sound (roles_of_fresh hn) refusal managed
  | advance refusal n step =>
    obtain ⟨task, p, going, hstep, hroles⟩ := exists_of_advance? step
    rw [hroles]
    exact ManagerTask.kept_step? sound (roles_of_going going) hstep
  | read i step =>
    obtain ⟨c, d, client, stays, hmanager, htasks⟩ := exists_of_advanceReading? step
    rw [hmanager, roles_eq_of_tasks_eq htasks]
    exact sound.stays client stays
  | event e =>
    obtain ⟨htasks, hmanager | ⟨i, c, d, client, stays, hmanager⟩⟩ := s.manager_happen e
    · rw [hmanager, roles_eq_of_tasks_eq htasks]
      exact sound
    · rw [hmanager, roles_eq_of_tasks_eq htasks]
      exact sound.stays client stays

/-- Every run of a new session is sound. -/
theorem Run.sound (run : Run s₀ h s) (new : s₀.IsNew) : s.Sound := by
  induction run with
  | begins => exact new.sound
  | moves _ next ih => exact ih.moves next

/-! ### Runs that are written down -/

/-- Something that is done next. -/
inductive Move where
  /-- Ask for the client of a language. -/
  | client (task : Nat) (language : String)
  | stop (task client : Nat)
  | advance (task : Nat)
  | read (client : Nat)
  | event (e : Event)

/-- Every command can be run. -/
def unrefused : Refusal := fun _ ↦ none

/-- What a move shows and leads to, if it can be made. -/
def move? (s : ManagerSession) : Move → Option (ManagerHistory × ManagerSession)
  | .client n language =>
    if n ∉ s.numbers then
      some (s.startShows unrefused n (.client language), s.start unrefused n (.client language))
    else none
  | .stop n i =>
    if n ∉ s.numbers ∧ i ∈ s.given then
      some (s.startShows unrefused n (.stop i), s.start unrefused n (.stop i))
    else none
  | .advance n => (s.advance? unrefused n).map ((s.advanceShows unrefused n, ·))
  | .read i => (s.advanceReading? i).map (([], ·))
  | .event e => some ([], s.happen e)

/-- A move is something that may happen. -/
theorem moves_of_move? {move : Move} (h : s.move? move = some (shown, t)) : s.Moves shown t := by
  cases move with
  | client n language =>
    simp only [move?, Option.ite_none_right_eq_some] at h
    obtain ⟨fresh, h⟩ := h
    cases h
    exact .start unrefused n (.client language) fresh trivial (by simp)
  | stop n i =>
    simp only [move?, Option.ite_none_right_eq_some] at h
    obtain ⟨⟨fresh, given⟩, h⟩ := h
    cases h
    exact .start unrefused n (.stop i) fresh given (by simp)
  | advance n =>
    simp only [move?, Option.map_eq_some_iff] at h
    obtain ⟨_, step, h⟩ := h
    cases h
    exact .advance unrefused n step
  | read i =>
    simp only [move?, Option.map_eq_some_iff] at h
    obtain ⟨_, step, h⟩ := h
    cases h
    exact .read i step
  | event e =>
    cases h
    exact .event e

/-- Make moves one after the other; a move that cannot be made is left out. -/
def play : List Move → ManagerHistory × ManagerSession → ManagerHistory × ManagerSession
  | [], state => state
  | move :: moves, (h, s) =>
    match s.move? move with
    | some (shown, t) => play moves (h ++ shown ++ s.losses shown t, t)
    | none => play moves (h, s)

/-- What is played is a run. -/
theorem Run.play (run : Run s₀ h s) (moves : List Move) :
    Run s₀ (play moves (h, s)).1 (play moves (h, s)).2 := by
  induction moves generalizing h s with
  | nil => exact run
  | cons move moves ih =>
    simp only [ManagerSession.play]
    split
    · next shown t hmove => exact ih (run.moves (moves_of_move? hmove))
    · exact ih run

/-- A new manager. -/
def hub : ManagerSession := { manager := { commands := .builtin, root := "/" } }

/-- Nothing was started, and nothing is going on. -/
theorem isNew_hub : hub.IsNew := ⟨rfl, rfl, rfl⟩

/-- The handshake of a client that a task starts: the request is written, the server answers it, and
the task goes on. -/
def handshake (task client : Nat) : List Move :=
  let answer := "\x7b\"id\":1,\"result\":\x7b\"capabilities\":\x7b\x7d\x7d\x7d"
  [.advance task, .event (.server client (.arrive (Frame.encode answer)))] ++
    List.replicate 12 (.read client) ++ List.replicate 8 (.advance task)

end ManagerSession

end LanguageHub
