import LanguageHub.Proofs.Manager.Changes
import LanguageHub.Proofs.Manager.Requests
import LanguageHub.Proofs.Manager.Starts

/-!
# Who stands at the gates

A step of an operation of a manager begins or goes on with the way to the client of a language,
empties the registry, or is about no language. The last changes clients alone, and so does whatever
happens beside operations.

In every run of a manager at whose gates nobody stood, everybody in the line at the gate of a
language waits there for the client or has the gate. Clients are registered, waited for and started
only for languages that there is a command for.
-/

namespace LanguageHub

namespace Manager

/-- Nothing but clients has changed, and none was started. -/
structure Alters (m n : Manager) : Prop where
  registry : ∀ L, n.registry.get? L = m.registry.get? L
  gate : ∀ L, n.gate L = m.gate L
  commands : n.commands = m.commands
  client?_eq_none : ∀ i, n.client? i = none ↔ m.client? i = none

variable {a : Agent} {about : String → Prop} {m n : Manager} {i : Nat} {c : Client}

theorem Alters.refl (m : Manager) : m.Alters m :=
  ⟨fun _ ↦ rfl, fun _ ↦ rfl, rfl, fun _ ↦ .rfl⟩

theorem Alters.trans {k : Manager} (first : m.Alters n) (second : n.Alters k) : m.Alters k where
  registry L := (second.registry L).trans (first.registry L)
  gate L := (second.gate L).trans (first.gate L)
  commands := second.commands.trans first.commands
  client?_eq_none i := (second.client?_eq_none i).trans (first.client?_eq_none i)

/-- A client is changed. -/
theorem alters_setClient (client : m.client? i = some c) (d : Client) :
    m.Alters (m.setClient i d) := by
  refine ⟨fun _ ↦ rfl, fun _ ↦ rfl, rfl, fun j ↦ ?_⟩
  rw [client?_setClient_of_some client]
  split
  · next same =>
    subst same
    simp [client]
  · rfl

/-- An operation that is about no language changes clients alone. -/
theorem Moves.alters (moves : m.Moves a about n) (silent : ∀ L, ¬ about L) : m.Alters n := by
  refine ⟨fun L ↦ moves.get?_registry (silent L), fun L ↦ moves.gate (silent L), moves.settings.1,
    fun j ↦ ⟨fun absent ↦ ?_, moves.client?_eq_none silent⟩⟩
  refine Option.eq_none_iff_forall_ne_some.mpr fun c client ↦ ?_
  obtain ⟨d, found, -⟩ := moves.exists_client? client
  rw [absent] at found
  cases found

end Manager

namespace ManagerTask

/-- What follows a way to a client changes clients alone. -/
theorem alters_follow (a : Agent) (language : String) (goal : Goal)
    (p : Progress Obtaining Obtaining.Outcome) (m : Manager) :
    m.Alters (follow a language goal (p, m)).2 :=
  (moves_follow a (fun _ ↦ False) language goal p m).alters fun _ ↦ id

/-- An operation is about the way that it is on, and about nothing once it has obtained the
client. -/
theorem roleOf_follow (a : Agent) (language : String) (goal : Goal)
    (p : Progress Obtaining Obtaining.Outcome) (m : Manager) :
    roleOf (follow a language goal (p, m)).1 = Obtaining.roleOf language p := by
  rcases p with _ | (_ | i)
  · rfl
  · rfl
  · exact (serve_spec a goal i m).1

end ManagerTask

namespace ManagerSession

variable {s t : ManagerSession} {n i : Nat} {refusal : Refusal}

/-- What a step of an operation is, which may begin with it. -/
inductive Turn (s : ManagerSession) (n : Nat) :
    Option ManagerRequest → ManagerSession → Prop where
  /-- The way to the client of a language begins. -/
  | asks {t : ManagerSession} {r : ManagerRequest} {language : String} {refusal : Refusal}
      {p : Progress Obtaining Obtaining.Outcome} {m : Manager}
      (spoken : r.language? s.manager = some language) (idle : s.roles n = .idle)
      (way : Obtaining.start (.operation n) s.now refusal language s.manager = (p, m))
      (rest : m.Alters t.manager)
      (roles : t.roles = Function.update s.roles n (Obtaining.roleOf language p)) :
      Turn s n (some r) t
  /-- The way goes on. -/
  | goes {t : ManagerSession} {language : String} {o : Obtaining} {refusal : Refusal}
      {p : Progress Obtaining Obtaining.Outcome} {m : Manager}
      (role : s.roles n = o.role language)
      (way : o.step? (.operation n) s.now refusal language s.manager = some (p, m))
      (rest : m.Alters t.manager)
      (roles : t.roles = Function.update s.roles n (Obtaining.roleOf language p)) :
      Turn s n none t
  /-- All clients are to be shut down. -/
  | clears {t : ManagerSession} {role : Role} (before : (s.roles n).language? = none)
      (rest : { s.manager with registry := .empty }.Alters t.manager)
      (silent : role.language? = none) (roles : t.roles = Function.update s.roles n role) :
      Turn s n (some .shutdown) t
  | other {t : ManagerSession} {request : Option ManagerRequest} {role : Role}
      (unspoken : ∀ r, request = some r → r.language? s.manager = none)
      (before : (s.roles n).language? = none) (rest : s.manager.Alters t.manager)
      (silent : role.language? = none) (roles : t.roles = Function.update s.roles n role) :
      Turn s n request t

/-- The start of an operation. -/
theorem turn_start {r : ManagerRequest} (fresh : n ∉ s.tasks.numbers)
    (managed : ∀ language command, r ≠ .start language command) (refusal : Refusal) :
    s.Turn n (some r) (s.start refusal n r) := by
  have idle := s.roles_of_fresh fresh
  have before : (s.roles n).language? = none := by
    rw [idle]
    rfl
  obtain ⟨hmanager, hroles⟩ := s.start_eq refusal n r
  have hroles := hroles fresh
  cases spoken : r.language? s.manager with
  | some language =>
    obtain ⟨goal, heq⟩ := ManagerTask.exists_start_eq_follow (.operation n) s.now refusal spoken
    generalize hway : Obtaining.start (.operation n) s.now refusal language s.manager = way at heq
    obtain ⟨p, m⟩ := way
    rw [heq] at hmanager hroles
    rw [ManagerTask.roleOf_follow] at hroles
    exact .asks spoken idle hway (hmanager ▸ ManagerTask.alters_follow ..) hroles
  | none =>
    have silent := (ManagerTask.silent_start (.operation n) s.now refusal spoken managed).2
    by_cases all : r = .shutdown
    · subst all
      have rest := (ManagerTask.moves_shutDownAll (.operation n) (fun _ ↦ False) s.now
        (s.manager.registry.entries.map (·.2)) { s.manager with registry := .empty }).alters
        fun _ ↦ id
      exact .clears before (hmanager ▸ rest) silent hroles
    · have moves : s.manager.Moves (.operation n) (fun _ ↦ False)
          (ManagerTask.start (.operation n) s.now refusal r s.manager).2 :=
        ManagerTask.moves_start _ _ _ _ _ (fun language h ↦ by rw [spoken] at h; cases h)
          (fun same ↦ absurd same all) fun language command same ↦
            absurd same (managed language command)
      have rest := moves.alters fun _ ↦ id
      refine .other (fun r' same ↦ ?_) before (hmanager ▸ rest) silent hroles
      cases same
      exact spoken

/-- A step of an operation. -/
theorem turn_of_advance? (step : s.advance? refusal n = some t) : s.Turn n none t := by
  obtain ⟨task, p, going, hstep, hroles⟩ := exists_of_advance? step
  have role := roles_of_going going
  cases task with
  | obtaining language goal o =>
    simp only [ManagerTask.step?, Option.map_eq_some_iff, Prod.exists] at hstep
    obtain ⟨q, m, hway, h⟩ := hstep
    have rest := ManagerTask.alters_follow (.operation n) language goal q m
    have next := ManagerTask.roleOf_follow (.operation n) language goal q m
    rw [h] at rest next
    rw [next] at hroles
    exact .goes role hway rest hroles
  | document | completion | shutdown | starting =>
    have silent := (ManagerTask.silent_of_step? (by simp) hstep).2
    have moves : s.manager.Moves (.operation n) (fun _ ↦ False) t.manager :=
      ManagerTask.moves_step? (by simp) hstep
    have rest := moves.alters fun _ ↦ id
    exact .other (by simp) (by rw [role]; rfl) rest silent hroles

/-- What happens beside operations changes clients alone. -/
theorem alters_of_advanceReading? (step : s.advanceReading? i = some t) :
    t.tasks = s.tasks ∧ s.manager.Alters t.manager := by
  obtain ⟨c, d, client, -, hmanager, htasks⟩ := exists_of_advanceReading? step
  exact ⟨htasks, hmanager ▸ Manager.alters_setClient client d⟩

/-- What happens beside operations changes clients alone. -/
theorem alters_happen (s : ManagerSession) (e : Event) :
    (s.happen e).tasks = s.tasks ∧ s.manager.Alters (s.happen e).manager := by
  obtain ⟨htasks, same | ⟨i, c, d, client, -, hmanager⟩⟩ := s.manager_happen e
  · exact ⟨htasks, same ▸ .refl _⟩
  · exact ⟨htasks, hmanager ▸ Manager.alters_setClient client d⟩

end ManagerSession

/-! ### Who stands in line -/

/-- Whether a task that is about this stands in the line at the gate of the language. -/
def Role.Stands (r : Role) (language : String) : Prop :=
  r = .queued language ∨ r.inside? = some language

/-- Whoever stands at a gate is about its language. -/
theorem Role.Stands.language?_eq {r : Role} {language : String} (stands : r.Stands language) :
    r.language? = some language := by
  obtain rfl | inside := stands
  · rfl
  · cases r with
    | evicting L hasGate =>
      cases hasGate with
      | true => exact inside
      | false => cases inside
    | admitted | connecting => exact inside
    | idle | queued | misplaced | stopping => cases inside

/-! ### The way to a client -/

namespace Obtaining

variable {a : Agent} {L : String} {m n : Manager} {p : Progress Obtaining Outcome}
  {hasGate : Bool} {now k : Nat} {refusal : Refusal}

/-- The others in the line at the gate of the language stood there before, and the operation stands
there if it is about that. -/
def KeepsLine (a : Agent) (L : String) (m : Manager) (p : Progress Obtaining Outcome)
    (n : Manager) : Prop :=
  ∀ b ∈ (n.gate L).line, b ≠ a ∧ b ∈ (m.gate L).line ∨ b = a ∧ (roleOf L p).Stands L

namespace KeepsLine

/-- Nothing has changed at the gate. -/
private theorem same (gate : n.gate L = m.gate L)
    (stands : a ∈ (m.gate L).line → (roleOf L p).Stands L) : KeepsLine a L m p n := by
  intro b line
  rw [gate] at line
  by_cases own : b = a
  · exact .inr ⟨own, stands (own ▸ line)⟩
  · exact .inl ⟨own, line⟩

/-- The operation has left the gate. -/
private theorem leaves (gate : n.gate L = (m.gate L).leave a) : KeepsLine a L m p n := by
  intro b line
  rw [gate, Lock.leave, List.mem_filter, decide_eq_true_eq] at line
  exact .inl ⟨line.2, line.1⟩

end KeepsLine

private theorem gate_leaveGate_self (m : Manager) (L : String) (a : Agent) :
    (m.leaveGate L a).gate L = (m.gate L).leave a :=
  (Manager.gate_leaveGate ..).trans (if_pos rfl)

/-- The way that goes on when there is no registered client. -/
theorem GoesOn.keepsLine (goesOn : GoesOn a L m hasGate p n)
    (out : hasGate = false → a ∉ (m.gate L).line) : KeepsLine a L m p n := by
  cases goesOn with
  | queues =>
    intro b line
    rw [Manager.gate_joinGate, if_pos rfl, Lock.request, List.mem_append,
      List.mem_singleton] at line
    obtain before | rfl := line
    · refine .inl ⟨?_, before⟩
      rintro rfl
      exact out rfl before
    · exact .inr ⟨rfl, .inl rfl⟩
  | unknown => exact .same rfl fun line ↦ absurd line (out rfl)
  | refused => exact .leaves (gate_leaveGate_self m L a)
  | launches => exact .same rfl fun _ ↦ .inr rfl

/-- The look for a registered client. -/
theorem Seeks.keepsLine (seeks : Seeks a L m hasGate p n)
    (out : hasGate = false → a ∉ (m.gate L).line) : KeepsLine a L m p n := by
  cases seeks with
  | takes =>
    cases hasGate with
    | false => exact .same rfl fun line ↦ absurd line (out rfl)
    | true => exact .leaves (gate_leaveGate_self m L a)
  | evicts =>
    refine .same rfl fun line ↦ ?_
    cases hasGate with
    | false => exact absurd line (out rfl)
    | true => exact .inr rfl
  | vacant _ goesOn => exact goesOn.keepsLine out
  | discards _ _ _ goesOn => exact goesOn.keepsLine out

/-- A step of the way. -/
theorem Takes.keepsLine {o : Obtaining} {roles : Nat → Role} (kept : m.Kept roles)
    (role : roles k = o.role L) (takes : Takes (.operation k) L m o p n)
    (stood : .operation k ∈ (m.gate L).line → (o.role L).Stands L) :
    KeepsLine (.operation k) L m p n := by
  cases takes with
  | evicts => exact .same rfl stood
  | @evicted hasGate i c d shutdown p n client ends goesOn =>
    refine goesOn.keepsLine ?_
    rintro rfl line
    rcases stood line with h | h <;> cases h
  | enters _ seeks => exact seeks.keepsLine fun h ↦ by cases h
  | connects => exact .same rfl fun _ ↦ .inr rfl
  | fails => exact .leaves (gate_leaveGate_self ..)
  | registers => exact .leaves (gate_leaveGate_self ..)
  | displaces registered =>
    rw [kept.unregistered k L (by rw [role]; rfl)] at registered
    cases registered
  | displacing => exact absurd role (kept.inPlace k)

/-- A way that begins and goes on is to a client of a language that there is a command for, or one
was registered. -/
theorem supports_of_start {o : Obtaining} (h : start a now refusal L m = (.running o, n)) :
    m.commands.supports L = true ∨ ∃ i, m.registry.get? L = some i := by
  unfold start seek at h
  split at h
  · unfold goOn at h
    rw [if_neg Bool.false_ne_true] at h
    split at h
    · next supported => exact .inl supported
    · cases h
  · next i registered => exact .inr ⟨i, registered⟩

end Obtaining

namespace ManagerSession

open ManagerOccurrence

variable {s₀ s t : ManagerSession} {h shown : ManagerHistory} {n : Nat}
  {request : Option ManagerRequest} {L : String}

/-- Something is a step of an operation or changes clients alone. -/
theorem Moves.turn (next : s.Moves shown t) :
    (t.tasks = s.tasks ∧ s.manager.Alters t.manager) ∨ ∃ n request, s.Turn n request t := by
  cases next with
  | start refusal n r fresh _ managed =>
    exact .inr ⟨n, _, turn_start (fun h ↦ fresh (List.mem_append_left _ h)) managed refusal⟩
  | advance refusal n step => exact .inr ⟨n, _, turn_of_advance? step⟩
  | read i step => exact .inl (alters_of_advanceReading? step)
  | event e => exact .inl (alters_happen s e)

/-! ### The lines -/

/-- Everybody in the line at a gate waits there or has the gate. -/
def Lined (s : ManagerSession) : Prop :=
  ∀ L, ∀ b ∈ (s.manager.gate L).line, ∃ k, b = .operation k ∧ (s.roles k).Stands L

/-- Nothing was started, nothing is going on, and nobody stands at a gate. -/
structure IsUnused (s : ManagerSession) : Prop extends s.IsNew where
  gates : s.manager.gates = .empty

theorem IsUnused.lined (unused : s.IsUnused) : s.Lined := by
  intro L b line
  rw [Manager.gate, unused.gates] at line
  cases line

/-- Nothing has changed at the gates, and an operation that stood at none stands at none. -/
private theorem Lined.still (lined : s.Lined) (gate : ∀ L, t.manager.gate L = s.manager.gate L)
    (before : (s.roles n).language? = none) {role : Role}
    (roles : t.roles = Function.update s.roles n role) : t.Lined := by
  intro L b line
  rw [gate] at line
  obtain ⟨k, rfl, stands⟩ := lined L b line
  refine ⟨k, rfl, ?_⟩
  rw [roles, Function.update_of_ne]
  · exact stands
  · rintro rfl
    rw [stands.language?_eq] at before
    cases before

/-- A step of an operation on the way to a client. -/
private theorem Lined.way (lined : s.Lined) {m : Manager}
    {p : Progress Obtaining Obtaining.Outcome} (own : ∀ L', (s.roles n).Stands L' → L' = L)
    (keeps : Obtaining.KeepsLine (.operation n) L s.manager p m)
    (moves : s.manager.Moves (.operation n) (· = L) m) (rest : m.Alters t.manager)
    (roles : t.roles = Function.update s.roles n (Obtaining.roleOf L p)) : t.Lined := by
  intro L' b line
  rw [rest.gate] at line
  by_cases same : L' = L
  · subst same
    obtain ⟨other, line⟩ | ⟨rfl, stands⟩ := keeps b line
    · obtain ⟨k, rfl, stands⟩ := lined L' b line
      refine ⟨k, rfl, ?_⟩
      rw [roles, Function.update_of_ne fun h ↦ other (congrArg _ h)]
      exact stands
    · refine ⟨n, rfl, ?_⟩
      rw [roles, Function.update_self]
      exact stands
  · rw [moves.gate same] at line
    obtain ⟨k, rfl, stands⟩ := lined L' b line
    refine ⟨k, rfl, ?_⟩
    rw [roles, Function.update_of_ne]
    · exact stands
    · rintro rfl
      exact same (own L' stands)

/-- A step of an operation. -/
theorem Lined.turn (lined : s.Lined) (sound : s.Sound) (turn : s.Turn n request t) :
    t.Lined := by
  cases turn with
  | @asks _ r L refusal p m spoken idle way rest roles =>
    have nowhere (L' : String) : ¬ (s.roles n).Stands L' := by
      rw [idle]
      rintro (h | h) <;> cases h
    refine lined.way (fun L' stands ↦ absurd stands (nowhere L'))
      ((Obtaining.seeks_of_seek way).keepsLine fun _ line ↦ ?_) (Obtaining.moves_start way) rest
        roles
    obtain ⟨k, same, stands⟩ := lined L _ line
    cases same
    exact nowhere L stands
  | @goes _ L o refusal p m role way rest roles =>
    have own (L' : String) (stands : (s.roles n).Stands L') : L' = L := by
      have about := stands.language?_eq
      rw [sound.language?_eq role] at about
      exact (Option.some.inj about).symm
    refine lined.way own ((Obtaining.takes_of_step? way).keepsLine sound role fun line ↦ ?_)
      (Obtaining.moves_step? way) rest roles
    obtain ⟨k, same, stands⟩ := lined L _ line
    cases same
    rw [← role]
    exact stands
  | clears before rest silent roles => exact lined.still rest.gate before roles
  | other unspoken before rest silent roles => exact lined.still rest.gate before roles

/-- Along every run, everybody in the line at a gate waits there or has the gate. -/
theorem Run.lined (run : Run s₀ h s) (unused : s₀.IsUnused) : s.Lined := by
  induction run with
  | begins => exact unused.lined
  | moves run next ih =>
    obtain ⟨tasks, alters⟩ | ⟨n, request, turn⟩ := next.turn
    · intro L b line
      rw [alters.gate] at line
      rw [roles_eq_of_tasks_eq tasks]
      exact ih L b line
    · exact ih.turn (run.sound unused.toIsNew) turn

/-! ### Languages with a command -/

/-- There is a command for every language that a client is registered for or that a task is
about. -/
structure Supported (s : ManagerSession) : Prop where
  registered : ∀ L i, s.manager.registry.get? L = some i → s.manager.commands.supports L = true
  wanted : ∀ n L, (s.roles n).language? = some L → s.manager.commands.supports L = true

/-- No operation changes the commands. -/
theorem Turn.commands (turn : s.Turn n request t) : t.manager.commands = s.manager.commands := by
  cases turn with
  | asks spoken idle way rest roles =>
    exact rest.commands.trans (Obtaining.moves_start way).settings.1
  | goes role way rest roles => exact rest.commands.trans (Obtaining.moves_step? way).settings.1
  | clears before rest silent roles => exact rest.commands
  | other unspoken before rest silent roles => exact rest.commands

/-- What an operation is about after a step there is a command for. -/
private theorem Supported.wanted_turn (supported : s.Supported) (sound : s.Sound)
    (turn : s.Turn n request t) {k : Nat} (about : (t.roles k).language? = some L) :
    s.manager.commands.supports L = true := by
  have others {role : Role} (own : role.language? = some L → s.manager.commands.supports L = true)
      (roles : t.roles = Function.update s.roles n role) :
      s.manager.commands.supports L = true := by
    rw [roles, Function.update_apply] at about
    split at about
    · exact own about
    · exact supported.wanted k L about
  cases turn with
  | @asks _ r L' refusal p m spoken idle way rest roles =>
    refine others (fun own ↦ ?_) roles
    obtain rfl := Obtaining.eq_of_language? own
    cases p with
    | running o =>
      obtain supports | ⟨i, registered⟩ := Obtaining.supports_of_start way
      · exact supports
      · exact supported.registered L i registered
    | finished => cases own
  | @goes _ L' o refusal p m role way rest roles =>
    refine others (fun own ↦ ?_) roles
    obtain rfl := Obtaining.eq_of_language? own
    exact supported.wanted n L (sound.language?_eq role)
  | clears before rest silent roles =>
    exact others (fun own ↦ by rw [silent] at own; cases own) roles
  | other unspoken before rest silent roles =>
    exact others (fun own ↦ by rw [silent] at own; cases own) roles

/-- Along every run there is a command for every language that a client is registered for or that a
task is about. -/
theorem Run.supported (run : Run s₀ h s) (new : s₀.IsNew) : s.Supported := by
  induction run with
  | begins =>
    constructor
    · intro L i registered
      rw [new.registry] at registered
      cases registered
    · intro n L about
      simp only [roles, Tasks.state?, new.running, List.find?_nil, Option.map_none,
        Option.elim_none] at about
      cases about
  | @moves h shown s t run next ih =>
    have sound := run.sound new
    have commands : t.manager.commands = s.manager.commands := by
      obtain ⟨-, alters⟩ | ⟨n, request, turn⟩ := next.turn
      · exact alters.commands
      · exact turn.commands
    constructor
    · intro L i registered
      rw [commands]
      obtain before | ⟨n, entered⟩ := (sound.fair next).grows L i registered
      · exact ih.registered L i before
      · refine ih.wanted n L ?_
        rw [((sound.fair next).registered n L i entered).1]
        rfl
    · intro n L about
      rw [commands]
      obtain ⟨tasks, -⟩ | ⟨k, request, turn⟩ := next.turn
      · rw [roles_eq_of_tasks_eq tasks] at about
        exact ih.wanted n L about
      · exact ih.wanted_turn sound turn about

end ManagerSession

end LanguageHub
