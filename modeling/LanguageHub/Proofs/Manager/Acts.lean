import LanguageHub.Proofs.Manager.Gates

/-!
# What each operation has done

A record of a session is the list of the steps of all its operations, each with the manager before
and after it. An operation asks for the client of one language at most, and changes the registry at
this language alone. As long as it is on the way to the client, it has entered nobody into the
registry and has started no client but the one whose handshake it is at.
-/

namespace LanguageHub

/-- A step of an operation, with what it made of the manager. -/
structure Act where
  task : Nat
  /-- The operation, if it begins with this step. -/
  request : Option ManagerRequest
  before : Manager
  after : Manager

namespace Act

/-- The operation begins with this step and asks for the client of the normalized language. -/
def Asks (x : Act) (language : String) : Prop :=
  ∃ r, x.request = some r ∧ r.language? x.before = some language

/-- The step starts the client with this number, and its process. -/
def Spawns (x : Act) (i : Nat) : Prop := x.before.client? i = none ∧ x.after.client? i ≠ none

/-- The step registers the client for the language. -/
def Enters (x : Act) (language : String) (i : Nat) : Prop :=
  x.before.registry.get? language ≠ some i ∧ x.after.registry.get? language = some i

/-- A step of an operation asks for one language at most. -/
theorem eq_of_asks {x : Act} {L L' : String} (first : x.Asks L) (second : x.Asks L') : L = L' := by
  obtain ⟨r, request, spoken⟩ := first
  obtain ⟨r', request', spoken'⟩ := second
  rw [request] at request'
  obtain rfl := Option.some.inj request'
  rw [spoken] at spoken'
  exact Option.some.inj spoken'

end Act

/-! ### The way to a client -/

namespace Obtaining

variable {a : Agent} {L : String} {m m₁ n : Manager} {p : Progress Obtaining Outcome}
  {hasGate : Bool} {k : Nat}

/-- What a step of a way starts is the client whose handshake begins, and it registers nobody
unless it obtains the client. -/
structure Adds (m : Manager) (p : Progress Obtaining Outcome) (n : Manager) : Prop where
  spawned : ∀ i, m.client? i = none → n.client? i ≠ none → ∃ k, p = .running (.connecting i k)
  begun : ∀ i k, p = .running (.connecting i k) → m.client? i = none ∧ n.client? i ≠ none
  entered : (∀ i, p ≠ .finished (.ok i)) →
    ∀ L i, n.registry.get? L = some i → m.registry.get? L = some i

namespace Adds

/-- What changes nothing but clients adds nothing. -/
theorem of_alters (alters : m.Alters n) (elsewhere : ∀ i k, p ≠ .running (.connecting i k)) :
    Adds m p n where
  spawned i absent present := absurd ((alters.client?_eq_none i).mpr absent) present
  begun _ _ same := absurd same (elsewhere _ _)
  entered _ L _ registered := (alters.registry L).symm.trans registered

/-- A step from where nothing was added. -/
theorem after (adds : Adds m₁ p n) (clients : ∀ i, m₁.client? i = none ↔ m.client? i = none)
    (fewer : ∀ L i, m₁.registry.get? L = some i → m.registry.get? L = some i) : Adds m p n where
  spawned i absent present := adds.spawned i ((clients i).mpr absent) present
  begun i k same := ⟨(clients i).mp (adds.begun i k same).1, (adds.begun i k same).2⟩
  entered failed L i registered := fewer L i (adds.entered failed L i registered)

/-- What follows the step changes nothing but clients. -/
theorem alters (adds : Adds m p m₁) (alters : m₁.Alters n) : Adds m p n where
  spawned i absent present :=
    adds.spawned i absent fun none ↦ present ((alters.client?_eq_none i).mpr none)
  begun i k same := ⟨(adds.begun i k same).1, fun none ↦
    (adds.begun i k same).2 ((alters.client?_eq_none i).mp none)⟩
  entered failed L i registered :=
    adds.entered failed L i ((alters.registry L).symm.trans registered)

end Adds

/-- The way that goes on when there is no registered client. -/
theorem GoesOn.adds (goesOn : GoesOn a L m hasGate p n) : Adds m p n := by
  cases goesOn with
  | launches =>
    refine ⟨fun i absent present ↦ ?_, fun i k same ↦ ?_, fun _ L i ↦ id⟩
    · rw [Manager.client?_addClient] at present
      split at present
      · next same => exact ⟨_, by rw [same]⟩
      · exact absurd absent present
    · cases same
      rw [Manager.client?_addClient, if_pos rfl]
      exact ⟨m.client?_length, Option.some_ne_none _⟩
  | queues | unknown | refused =>
    refine ⟨fun i absent present ↦ absurd absent present, fun i k same ↦ ?_, fun _ L i ↦ id⟩
    cases same

/-- The look for a registered client. -/
theorem Seeks.adds (seeks : Seeks a L m hasGate p n) : Adds m p n := by
  cases seeks with
  | takes =>
    refine ⟨fun i absent present ↦ absurd absent ?_, nofun,
      fun failed ↦ absurd rfl (failed _)⟩
    cases hasGate <;> exact present
  | @evicts i c d _ _ client =>
    have client : { m with registry := m.registry.erase L }.client? i = some c := client
    have changed := Manager.alters_setClient client d
    refine (Adds.of_alters changed ?_).after (fun _ ↦ .rfl) fun L i ↦
      Dictionary.get?_of_get?_erase
    exact nofun
  | vacant _ goesOn => exact goesOn.adds
  | discards _ _ _ goesOn =>
    exact goesOn.adds.after (fun _ ↦ .rfl) fun L i ↦ Dictionary.get?_of_get?_erase

/-- A step of the way goes on with the handshake of the client, or it adds this at most. -/
theorem Takes.adds {o : Obtaining} {roles : Nat → Role} (kept : m.Kept roles)
    (role : roles k = o.role L) (takes : Takes (.operation k) L m o p n) :
    (∃ i c c', o = .connecting i c ∧ p = .running (.connecting i c') ∧ m.Alters n) ∨
      Adds m p n ∧ ∀ i c, o = .connecting i c → ∃ answer, p = .finished answer := by
  cases takes with
  | evicts client =>
    exact .inr ⟨.of_alters (Manager.alters_setClient client _) nofun,
      nofun⟩
  | evicted client _ goesOn =>
    have changed := Manager.alters_setClient client
    exact .inr ⟨goesOn.adds.after (changed _).client?_eq_none fun _ _ ↦ id,
      nofun⟩
  | enters _ seeks => exact .inr ⟨seeks.adds, nofun⟩
  | connects client => exact .inl ⟨_, _, _, rfl, rfl, Manager.alters_setClient client _⟩
  | fails client =>
    refine .inr ⟨⟨fun j absent present ↦ absurd ?_ present, nofun, fun _ _ _ ↦ id⟩,
      fun _ _ _ ↦ ⟨_, rfl⟩⟩
    exact ((Manager.alters_setClient client _).client?_eq_none j).mpr absent
  | registers client =>
    refine .inr ⟨⟨fun j absent present ↦ absurd ?_ present, nofun,
      fun failed ↦ absurd rfl (failed _)⟩, fun _ _ _ ↦ ⟨_, rfl⟩⟩
    exact ((Manager.alters_setClient client _).client?_eq_none j).mpr absent
  | displaces registered =>
    rw [kept.unregistered k L (by rw [role]; rfl)] at registered
    cases registered
  | displacing => exact absurd role (kept.inPlace k)

end Obtaining

namespace ManagerSession

variable {s₀ s t : ManagerSession} {acts new : List Act} {x : Act} {n : Nat} {L : String}

/-! ### Records -/

/-- What may happen next, with the step of an operation that it is, if it is one, and if no client
is started that is not to be registered. -/
inductive Goes (s : ManagerSession) : List Act → ManagerSession → Prop where
  | start (refusal : Refusal) (n : Nat) (r : ManagerRequest) (fresh : n ∉ s.numbers)
      (admitted : s.Admits r) (managed : ∀ language command, r ≠ .start language command) :
      Goes s [⟨n, some r, s.manager, (s.start refusal n r).manager⟩] (s.start refusal n r)
  | advance {t : ManagerSession} (refusal : Refusal) (n : Nat)
      (step : s.advance? refusal n = some t) : Goes s [⟨n, none, s.manager, t.manager⟩] t
  | read {t : ManagerSession} (i : Nat) (step : s.advanceReading? i = some t) : Goes s [] t
  | event (e : Event) : Goes s [] (s.happen e)

/-- What can come of a session, with the steps that its operations have taken. -/
inductive Record (s₀ : ManagerSession) : List Act → ManagerSession → Prop where
  | begins : Record s₀ [] s₀
  | goes {acts new : List Act} {s t : ManagerSession} (record : Record s₀ acts s)
      (next : s.Goes new t) : Record s₀ (acts ++ new) t

theorem Goes.moves (next : s.Goes new t) : ∃ shown, s.Moves shown t := by
  cases next with
  | start refusal n r fresh admitted managed =>
    exact ⟨_, .start refusal n r fresh admitted managed⟩
  | advance refusal n step => exact ⟨_, .advance refusal n step⟩
  | read i step => exact ⟨_, .read i step⟩
  | event e => exact ⟨_, .event e⟩

/-- What is recorded is a run. -/
theorem Record.run (record : Record s₀ acts s) : ∃ h, Run s₀ h s := by
  induction record with
  | begins => exact ⟨[], .begins⟩
  | goes _ next ih =>
    obtain ⟨h, run⟩ := ih
    obtain ⟨shown, moves⟩ := next.moves
    exact ⟨_, run.moves moves⟩

/-- This is what a step of an operation has made of the manager of a session. -/
structure Leads (s : ManagerSession) (x : Act) (t : ManagerSession) : Prop where
  before : x.before = s.manager
  after : x.after = t.manager
  fresh : x.request ≠ none → x.task ∉ s.numbers
  turn : s.Turn x.task x.request t

/-- What happens next is a step of one operation or changes clients alone. -/
theorem Goes.leads (next : s.Goes new t) :
    (new = [] ∧ t.tasks = s.tasks ∧ s.manager.Alters t.manager) ∨
      ∃ x, new = [x] ∧ s.Leads x t := by
  cases next with
  | start refusal n r fresh _ managed =>
    exact .inr ⟨_, rfl, rfl, rfl, fun _ ↦ fresh,
      turn_start (fun h ↦ fresh (List.mem_append_left _ h)) managed refusal⟩
  | advance refusal n step =>
    exact .inr ⟨_, rfl, rfl, rfl, fun begins ↦ absurd rfl begins, turn_of_advance? step⟩
  | read i step => exact .inl ⟨rfl, alters_of_advanceReading? step⟩
  | event e => exact .inl ⟨rfl, alters_happen s e⟩

/-- A number was given to an operation that is going on or that has ended. -/
theorem mem_numbers_iff :
    n ∈ s.numbers ↔ s.tasks.state? n ≠ none ∨ s.tasks.answer? n ≠ none := by
  rw [numbers, List.mem_append, ne_eq, ne_eq, Tasks.state?_eq_none_iff, Tasks.answer?_eq_none_iff,
    Decidable.not_not, Decidable.not_not]

/-- Numbers that were given stay given, and whoever takes a step has one. -/
theorem Goes.numbers (next : s.Goes new t) :
    (∀ n ∈ s.numbers, n ∈ t.numbers) ∧ ∀ x ∈ new, x.task ∈ t.numbers := by
  have finished (n m : Nat) (answer : ManagerAnswer) (given : m ∈ s.numbers ∨ m = n) :
      (s.tasks.finish n answer).state? m ≠ none ∨ (s.tasks.finish n answer).answer? m ≠ none := by
    rw [Tasks.state?_finish, Tasks.answer?_finish]
    by_cases own : m = n
    · simp [own]
    · simpa [own, mem_numbers_iff] using given
  cases next with
  | start refusal n r fresh =>
    have unused : n ∉ s.tasks.numbers := fun h ↦ fresh (List.mem_append_left _ h)
    have given (m : Nat) (given : m ∈ s.numbers ∨ m = n) :
        m ∈ (s.start refusal n r).numbers := by
      rw [mem_numbers_iff]
      unfold ManagerSession.start
      split
      · rw [Tasks.state?_start unused, Tasks.answer?_start]
        by_cases own : m = n
        · simp [own]
        · simpa [own, mem_numbers_iff] using given
      · exact finished n m _ given
    exact ⟨fun m old ↦ given m (.inl old), by simpa using given n (.inr rfl)⟩
  | advance refusal n step =>
    simp only [advance?, Option.bind_eq_bind, Option.bind_eq_some_iff, Prod.exists] at step
    obtain ⟨task, going, p, m, -, h⟩ := step
    have given (k : Nat) (given : k ∈ s.numbers) : k ∈ t.numbers := by
      rw [mem_numbers_iff]
      cases p with
      | running next =>
        cases h
        rw [Tasks.state?_update, Tasks.answer?_update]
        by_cases own : k = n
        · simp [own, going]
        · simpa [own, mem_numbers_iff] using given
      | finished answer =>
        cases h
        exact finished n k answer (.inl given)
    refine ⟨given, ?_⟩
    simpa using given n (mem_numbers_iff.mpr (.inl (by simp [going])))
  | read i step =>
    rw [ManagerSession.numbers, ManagerSession.numbers, (alters_of_advanceReading? step).1]
    exact ⟨fun _ ↦ id, by simp⟩
  | event e =>
    rw [ManagerSession.numbers, ManagerSession.numbers, (alters_happen s e).1]
    exact ⟨fun _ ↦ id, by simp⟩

/-! ### What the operations have done -/

/-- The other operations are about the same as before. -/
theorem Leads.roles_of_ne (leads : s.Leads x t) (other : n ≠ x.task) : t.roles n = s.roles n := by
  obtain ⟨-, -, -, turn⟩ := leads
  generalize x.request = request at turn
  cases turn with
  | asks _ _ _ _ roles | goes _ _ _ roles | clears _ _ _ roles | other _ _ _ _ roles =>
    rw [roles, Function.update_of_ne other]

/-- Whoever is about a language after a step was so before or has asked for it with the step. -/
theorem Leads.about (leads : s.Leads x t) (sound : s.Sound)
    (about : (t.roles n).language? = some L) :
    (s.roles n).language? = some L ∨ n = x.task ∧ x.Asks L := by
  have others {role : Role} (roles : t.roles = Function.update s.roles x.task role)
      (own : role.language? = some L → (s.roles x.task).language? = some L ∨ x.Asks L) :
      (s.roles n).language? = some L ∨ n = x.task ∧ x.Asks L := by
    rw [roles, Function.update_apply] at about
    split at about
    · next same =>
      rw [same]
      exact (own about).imp_right fun asks ↦ ⟨rfl, asks⟩
    · exact .inl about
  obtain ⟨before, -, -, turn⟩ := leads
  generalize hrequest : x.request = request at turn
  cases turn with
  | @asks _ r _ _ _ _ spoken idle way rest roles =>
    refine others roles fun own ↦ .inr ⟨r, hrequest, ?_⟩
    rw [Obtaining.eq_of_language? own, before]
    exact spoken
  | goes role way rest roles =>
    refine others roles fun own ↦ .inl ?_
    rw [sound.language?_eq role, Obtaining.eq_of_language? own]
  | clears _ _ silent roles =>
    exact others roles fun own ↦ by rw [silent] at own; cases own
  | other _ _ _ silent roles =>
    exact others roles fun own ↦ by rw [silent] at own; cases own

/-- An operation that is on the way to a client after a step has stayed at its handshake with the
step, or has come to where it is. -/
theorem Leads.stays_or_adds (leads : s.Leads x t) (sound : s.Sound)
    (about : (t.roles x.task).language? = some L) :
    (∃ i, s.roles x.task = .connecting L i ∧ t.roles x.task = .connecting L i ∧
        s.manager.Alters t.manager) ∨
      ∃ o : Obtaining, Obtaining.Adds s.manager (.running o) t.manager ∧
        t.roles x.task = o.role L ∧ ∀ L' i, s.roles x.task ≠ .connecting L' i := by
  obtain ⟨-, -, -, turn⟩ := leads
  have added {p : Progress Obtaining Obtaining.Outcome} {L' : String}
      (adds : Obtaining.Adds s.manager p t.manager)
      (roles : t.roles = Function.update s.roles x.task (Obtaining.roleOf L' p))
      (elsewhere : ∀ L' i, s.roles x.task = .connecting L' i → ∃ answer, p = .finished answer) :
      ∃ o : Obtaining, Obtaining.Adds s.manager (.running o) t.manager ∧
        t.roles x.task = o.role L ∧ ∀ L' i, s.roles x.task ≠ .connecting L' i := by
    rw [roles, Function.update_self] at about ⊢
    obtain rfl := Obtaining.eq_of_language? about
    cases p with
    | finished => cases about
    | running o =>
      refine ⟨o, adds, rfl, fun L' i role ↦ ?_⟩
      obtain ⟨_, ended⟩ := elsewhere L' i role
      cases ended
  generalize x.request = request at turn
  cases turn with
  | asks spoken idle way rest roles =>
    refine .inr (added ((Obtaining.seeks_of_seek way).adds.alters rest) roles fun L' i role ↦ ?_)
    rw [idle] at role
    cases role
  | @goes _ _ o _ _ _ role way rest roles =>
    obtain ⟨i, c, c', rfl, rfl, alters⟩ | ⟨adds, ends⟩ :=
      (Obtaining.takes_of_step? way).adds sound role
    · rw [roles, Function.update_self] at about ⊢
      obtain rfl := Obtaining.eq_of_language? about
      exact .inl ⟨i, role, rfl, alters.trans rest⟩
    · refine .inr (added (adds.alters rest) roles fun L' i connecting ↦ ?_)
      rw [role] at connecting
      cases o with
      | connecting i c => exact ends i c rfl
      | evicting | queued | displacing => cases connecting
  | clears _ _ silent roles | other _ _ _ silent roles =>
    rw [roles, Function.update_self, silent] at about
    cases about

/-- A step of an operation that is on the way to a client after it has started no client but the
one whose handshake it is at, and has registered none. If it was at a handshake before, it still
is. -/
theorem Leads.adds (leads : s.Leads x t) (sound : s.Sound)
    (about : (t.roles x.task).language? = some L) :
    (∀ i, x.Spawns i → t.roles x.task = .connecting L i) ∧ (∀ L' i, ¬ x.Enters L' i) ∧
      ∀ L' i, s.roles x.task = .connecting L' i → t.roles x.task = .connecting L i := by
  unfold Act.Spawns Act.Enters
  rw [leads.before, leads.after]
  obtain ⟨i, before, role, alters⟩ | ⟨o, adds, role, elsewhere⟩ := leads.stays_or_adds sound about
  · refine ⟨fun j spawns ↦ ?_, fun L' j enters ↦ ?_, fun L' j connecting ↦ ?_⟩
    · exact absurd ((alters.client?_eq_none j).mpr spawns.1) spawns.2
    · exact enters.1 ((alters.registry L').symm.trans enters.2)
    · rw [before] at connecting
      cases connecting
      exact role
  · refine ⟨fun i spawns ↦ ?_, fun L' i enters ↦ ?_, fun L' i connecting ↦ ?_⟩
    · obtain ⟨_, started⟩ := adds.spawned i spawns.1 spawns.2
      cases started
      exact role
    · exact enters.1 (adds.entered (by simp) L' i enters.2)
    · exact absurd connecting (elsewhere L' i)

/-- An operation that is at a handshake after a step was at it before or has started the client with
the step. -/
theorem Leads.begun (leads : s.Leads x t) (sound : s.Sound) {i : Nat}
    (role : t.roles x.task = .connecting L i) :
    s.roles x.task = .connecting L i ∨ x.Spawns i := by
  unfold Act.Spawns
  rw [leads.before, leads.after]
  obtain ⟨j, before, stayed, -⟩ | ⟨o, adds, same, -⟩ :=
    leads.stays_or_adds sound (L := L) (by rw [role]; rfl)
  · exact .inl (before.trans (stayed.symm.trans role))
  · rw [role] at same
    cases o with
    | connecting k c =>
      cases same
      exact .inr (adds.begun i c rfl)
    | evicting | queued | displacing => cases same

/-- What is true of the steps that the operations of a session have taken. -/
structure Told (acts : List Act) (s : ManagerSession) : Prop where
  numbered : ∀ x ∈ acts, x.task ∈ s.numbers
  asked : ∀ n L, (s.roles n).language? = some L → ∃ x ∈ acts, x.task = n ∧ x.Asks L
  once : ∀ x ∈ acts, ∀ y ∈ acts, x.task = y.task → ∀ L L', x.Asks L → y.Asks L' → L = L'
  own : ∀ x ∈ acts, ∀ y ∈ acts, x.task = y.task → ∀ L, x.Asks L → ∀ L', L' ≠ L →
    y.after.registry.get? L' = y.before.registry.get? L'
  spawned : ∀ x ∈ acts, ∀ L, (s.roles x.task).language? = some L → ∀ i, x.Spawns i →
    s.roles x.task = .connecting L i
  entered : ∀ x ∈ acts, ∀ L, (s.roles x.task).language? = some L → ∀ L' i, ¬ x.Enters L' i

namespace Told

/-- Nobody takes a step. -/
private theorem quiet (told : Told acts s) (next : s.Goes new t) (tasks : t.tasks = s.tasks) :
    Told acts t := by
  have roles := roles_eq_of_tasks_eq tasks
  refine ⟨fun x mem ↦ next.numbers.1 _ (told.numbered x mem), ?_, told.once, told.own, ?_, ?_⟩
  all_goals rw [roles]
  · exact told.asked
  · exact told.spawned
  · exact told.entered

/-- An operation that has taken a step does not begin. -/
private theorem request_eq_none (told : Told acts s) (leads : s.Leads x t) {y : Act}
    (mem : y ∈ acts) (same : y.task = x.task) : x.request = none := by
  by_contra begins
  refine leads.fresh begins ?_
  rw [← same]
  exact told.numbered y mem

/-- A step changes the registry at the language that the operation has asked for alone. -/
private theorem own_act (told : Told acts s) (leads : s.Leads x t) (sound : s.Sound) {y : Act}
    (mem : y ∈ acts ++ [x]) (same : y.task = x.task) (asks : y.Asks L) {L' : String}
    (other : L' ≠ L) : x.after.registry.get? L' = x.before.registry.get? L' := by
  have begins {r : ManagerRequest} (request : x.request = some r) : y = x := by
    rw [List.mem_append, List.mem_singleton] at mem
    obtain mem | rfl := mem
    · rw [told.request_eq_none leads mem same] at request
      cases request
    · rfl
  obtain ⟨before, after, -, turn⟩ := leads
  rw [before, after]
  generalize hrequest : x.request = request at turn
  cases turn with
  | @asks _ r _ _ _ _ spoken idle way rest roles =>
    obtain rfl := begins hrequest
    obtain rfl := Act.eq_of_asks asks ⟨r, hrequest, before ▸ spoken⟩
    rw [rest.registry]
    exact (Obtaining.moves_start way).get?_registry other
  | @goes _ L₁ _ _ _ _ role way rest roles =>
    rw [List.mem_append, List.mem_singleton] at mem
    obtain mem | rfl := mem
    · obtain ⟨z, memz, task, asksz⟩ := told.asked x.task L₁ (sound.language?_eq role)
      obtain rfl := told.once y mem z memz (same.trans task.symm) _ _ asks asksz
      rw [rest.registry]
      exact (Obtaining.moves_step? way).get?_registry other
    · obtain ⟨r, request, -⟩ := asks
      rw [hrequest] at request
      cases request
  | clears _ rest silent roles =>
    obtain rfl := begins hrequest
    obtain ⟨r, request, spoken⟩ := asks
    rw [hrequest] at request
    cases request
    cases spoken
  | other _ _ rest _ roles => exact rest.registry L'

/-- Whatever happens next. -/
theorem goes (told : Told acts s) (sound : s.Sound) (next : s.Goes new t) :
    Told (acts ++ new) t := by
  obtain ⟨rfl, tasks, -⟩ | ⟨x, rfl, leads⟩ := next.leads
  · rw [List.append_nil]
    exact told.quiet next tasks
  have split {y : Act} (mem : y ∈ acts ++ [x]) : y ∈ acts ∨ y = x := by
    rwa [List.mem_append, List.mem_singleton] at mem
  -- An operation that has taken a step before asks for nothing with this one.
  have unasked {y : Act} (mem : y ∈ acts) (same : y.task = x.task) {L : String} : ¬ x.Asks L := by
    rintro ⟨r, request, -⟩
    rw [told.request_eq_none leads mem same] at request
    cases request
  have before {y : Act} (mem : y ∈ acts) {L : String}
      (about : (t.roles y.task).language? = some L) : (s.roles y.task).language? = some L := by
    obtain before | ⟨same, asks⟩ := leads.about sound about
    · exact before
    · exact absurd asks (unasked mem same)
  refine ⟨fun y mem ↦ ?_, fun n L about ↦ ?_, fun y memy z memz same L L' asks asks' ↦ ?_,
    fun y memy z memz same L asks L' other ↦ ?_, fun y mem L about i spawns ↦ ?_,
    fun y mem L about L' i ↦ ?_⟩
  · obtain mem | rfl := split mem
    · exact next.numbers.1 _ (told.numbered y mem)
    · exact next.numbers.2 y (List.mem_singleton_self y)
  · obtain before | ⟨rfl, asks⟩ := leads.about sound about
    · obtain ⟨y, mem, task, asks⟩ := told.asked n L before
      exact ⟨y, List.mem_append_left _ mem, task, asks⟩
    · exact ⟨x, by simp, rfl, asks⟩
  · obtain oldy | rfl := split memy
    · obtain oldz | rfl := split memz
      · exact told.once y oldy z oldz same L L' asks asks'
      · exact absurd asks' (unasked oldy same)
    · obtain oldz | rfl := split memz
      · exact absurd asks (unasked oldz same.symm)
      · exact Act.eq_of_asks asks asks'
  · obtain oldz | rfl := split memz
    · obtain oldy | rfl := split memy
      · exact told.own y oldy z oldz same L asks L' other
      · exact absurd asks (unasked oldz same.symm)
    · exact told.own_act leads sound memy same asks other
  · obtain mem | rfl := split mem
    · have role := told.spawned y mem L (before mem about) i spawns
      by_cases own : y.task = x.task
      · rw [own] at about role ⊢
        exact (leads.adds sound about).2.2 L i role
      · rwa [leads.roles_of_ne own]
    · exact (leads.adds sound about).1 i spawns
  · obtain mem | rfl := split mem
    · exact told.entered y mem L (before mem about) L' i
    · exact (leads.adds sound about).2.1 L' i

end Told

/-- This is true of every record of a new manager. -/
theorem Record.told (record : Record s₀ acts s) (new : s₀.IsNew) : Told acts s := by
  induction record with
  | begins =>
    refine ⟨?_, fun n L about ↦ ?_, ?_, ?_, ?_, ?_⟩
    · simp
    · simp only [roles, Tasks.state?, new.running, List.find?_nil, Option.map_none,
        Option.elim_none] at about
      cases about
    all_goals simp
  | goes record next ih =>
    obtain ⟨h, run⟩ := record.run
    exact ih.goes (run.sound new) next

end ManagerSession

end LanguageHub
