import LanguageHub.Proofs.Manager.Requests

/-!
# One start per language

Whoever starts a client has the gate of its language, and behind the gate the registry was found
without a ready client. `Fair` says what a step can show, by the manager in front of it and the
registry behind it. Along a run, a client that was registered or obtained serves its language until
it is lost or all clients are shut down.

A process that runs is that of a registered client, of one that is being started, or of one that is
being stopped. For a language there is at most one of the first two. The next client may be started
before the process of one that is being stopped has come to its end, so that both run at once.
-/

namespace LanguageHub

open ManagerOccurrence

/-- From where a way looks for a registered client or goes on without one, in front of the gate or
behind it. -/
inductive Obtaining.GoesFrom : Option Obtaining → Bool → Prop where
  | outset : GoesFrom none false
  | queued : GoesFrom (some .queued) true
  | evicting (hasGate : Bool) (i : Nat) (k : Shutdown) :
      GoesFrom (some (.evicting hasGate i k)) hasGate

/-- A ready client is registered for the language. -/
def Manager.Serves (m : Manager) (language : String) (i : Nat) : Prop :=
  m.registry.get? language = some i ∧ ∃ c, m.client? i = some c ∧ c.isReady = true

/-- What a step shows, and what is true of it. -/
structure Fair (m : Manager) (roles : Nat → Role) (shown : ManagerHistory)
    (registry : Dictionary Nat) : Prop where
  /-- A client is started when none serves the language and none is being started. -/
  began : ∀ n L, began n L ∈ shown →
    (∀ i, ¬ m.Serves L i) ∧ ∀ k i, roles k ≠ .connecting L i
  /-- Whoever registers a client has started it, and none is registered until then. -/
  registered : ∀ n L i, registered n L i ∈ shown → roles n = .connecting L i ∧
    m.registry.get? L = none ∧ registry.get? L = some i ∧ ∀ k, .began k L ∉ shown
  obtained : ∀ n L i, obtained n L i ∈ shown → .registered n L i ∈ shown ∨ m.Serves L i
  persists : cleared ∉ shown → ∀ L i, m.Serves L i → registry.get? L = some i
  grows : ∀ L i, registry.get? L = some i →
    m.registry.get? L = some i ∨ ∃ n, .registered n L i ∈ shown

namespace Fair

variable {m m' : Manager} {roles : Nat → Role} {shown : ManagerHistory}
  {registry : Dictionary Nat} {n now i : Nat} {language : String} {hasGate : Bool}
  {before : Option Obtaining} {p : Progress Obtaining Obtaining.Outcome}

/-- A step that shows nothing and registers nothing. -/
theorem nothing (persists : ∀ L i, m.Serves L i → registry.get? L = some i)
    (fewer : ∀ L i, registry.get? L = some i → m.registry.get? L = some i) :
    Fair m roles [] registry := by
  refine ⟨?_, ?_, ?_, fun _ ↦ persists, fun L i h ↦ .inl (fewer L i h)⟩
  all_goals
    intros
    contradiction

/-- A step that shows nothing and leaves the registry as it is. -/
theorem still (m : Manager) (roles : Nat → Role) : Fair m roles [] m.registry :=
  nothing (fun _ _ serves ↦ serves.1) fun _ _ ↦ id

/-- The start of a client. -/
theorem begins (vacant : ∀ i, ¬ m.Serves language i)
    (alone : ∀ k i, roles k ≠ .connecting language i)
    (persists : ∀ L i, m.Serves L i → registry.get? L = some i)
    (fewer : ∀ L i, registry.get? L = some i → m.registry.get? L = some i) :
    Fair m roles [.began n language] registry := by
  refine ⟨fun k L h ↦ ?_, fun k L i h ↦ ?_, fun k L i h ↦ ?_, fun _ ↦ persists,
    fun L i h ↦ .inl (fewer L i h)⟩
  · cases List.mem_singleton.mp h
    exact ⟨vacant, alone⟩
  all_goals cases List.mem_singleton.mp h

/-- A client that serves the language is obtained. -/
theorem takes (serves : m.Serves language i) :
    Fair m roles [.obtained n language i] m.registry := by
  refine ⟨fun k L h ↦ ?_, fun k L j h ↦ ?_, fun k L j h ↦ ?_, fun _ _ _ serves ↦ serves.1,
    fun _ _ ↦ .inl⟩
  · cases List.mem_singleton.mp h
  · cases List.mem_singleton.mp h
  · cases List.mem_singleton.mp h
    exact .inr serves

/-- A client is registered and obtained. -/
theorem registers (role : roles n = .connecting language i)
    (vacant : m.registry.get? language = none) :
    Fair m roles [.registered n language i, .obtained n language i]
      (m.registry.insert language i) := by
  refine ⟨fun k L h ↦ ?_, fun k L j h ↦ ?_, fun k L j h ↦ ?_, fun _ L j serves ↦ ?_,
    fun L j h ↦ ?_⟩
  · simp at h
  · simp only [List.mem_cons, registered.injEq, reduceCtorEq, List.not_mem_nil, or_false] at h
    obtain ⟨rfl, rfl, rfl⟩ := h
    refine ⟨role, vacant, ?_, by simp⟩
    rw [Dictionary.get?_insert, if_pos rfl]
  · simp only [List.mem_cons, obtained.injEq, reduceCtorEq, List.not_mem_nil, or_false,
      false_or] at h
    obtain ⟨rfl, rfl, rfl⟩ := h
    exact .inl (List.mem_cons_self ..)
  · have different : L ≠ language := by
      rintro rfl
      have same := serves.1
      rw [vacant] at same
      cases same
    rw [Dictionary.get?_insert, if_neg different]
    exact serves.1
  · rw [Dictionary.get?_insert] at h
    split at h
    · next same =>
      cases h
      exact .inr ⟨n, by rw [same]; exact List.mem_cons_self ..⟩
    · exact .inl h

/-- All clients are to be shut down. -/
theorem clears (m : Manager) (roles : Nat → Role) : Fair m roles [.cleared] .empty := by
  refine ⟨fun k L h ↦ ?_, fun k L i h ↦ ?_, fun k L i h ↦ ?_, fun h ↦ ?_, fun L i h ↦ ?_⟩
  · cases List.mem_singleton.mp h
  · cases List.mem_singleton.mp h
  · cases List.mem_singleton.mp h
  · exact absurd (List.mem_singleton_self _) h
  · cases h

/-! ### The way to a client -/

/-- A way that goes on shows the start of a client, if it is behind the gate. -/
private theorem shows_of_goesOn (place : Obtaining.GoesFrom before hasGate)
    (goesOn : Obtaining.GoesOn (.operation n) language m hasGate p m') :
    Obtaining.shows n language before p = (if hasGate then [.began n language] else []) ∧
      m'.registry = m.registry := by
  cases place <;> cases goesOn <;> exact ⟨rfl, rfl⟩

/-- The way that goes on when there is no registered client. -/
private theorem goesOn (place : Obtaining.GoesFrom before hasGate) {m₁ : Manager}
    (goesOn : Obtaining.GoesOn (.operation n) language m₁ hasGate p m')
    (begins : hasGate = true →
      (∀ i, ¬ m.Serves language i) ∧ ∀ k i, roles k ≠ .connecting language i)
    (persists : ∀ L i, m.Serves L i → m₁.registry.get? L = some i)
    (fewer : ∀ L i, m₁.registry.get? L = some i → m.registry.get? L = some i) :
    Fair m roles (Obtaining.shows n language before p) m'.registry := by
  obtain ⟨hshows, hregistry⟩ := shows_of_goesOn place goesOn
  rw [hshows, hregistry]
  split
  · next hasGate => exact .begins (begins hasGate).1 (begins hasGate).2 persists fewer
  · exact .nothing persists fewer

/-- Nobody starts a client of the language whose gate somebody else has. -/
private theorem alone (kept : m.Kept roles)
    (held : (m.gate language).isHeldBy (.operation n) = true)
    (own : ∀ i, roles n ≠ .connecting language i) (k i : Nat) :
    roles k ≠ .connecting language i := by
  intro connecting
  have second := kept.held k language (by rw [connecting]; rfl)
  cases Lock.eq_of_isHeldBy held second
  exact own i connecting

/-- The look for a registered client. -/
theorem seeks (kept : m.Kept roles) (place : Obtaining.GoesFrom before hasGate)
    (held : hasGate = true → (m.gate language).isHeldBy (.operation n) = true)
    (own : ∀ i, roles n ≠ .connecting language i)
    (seeks : Obtaining.Seeks (.operation n) language m hasGate p m') :
    Fair m roles (Obtaining.shows n language before p) m'.registry := by
  -- A registered client that does not serve its language may be registered no more.
  have erased (unserved : ∀ i, ¬ m.Serves language i) (L : String) (i : Nat)
      (serves : m.Serves L i) : (m.registry.erase language).get? L = some i := by
    rw [Dictionary.get?_erase, if_neg, serves.1]
    rintro rfl
    exact unserved i serves
  have unserved {i : Nat} {c : Client} (registered : m.registry.get? language = some i)
      (client : m.client? i = some c) (unready : c.isReady = false) (j : Nat) :
      ¬ m.Serves language j := by
    rintro ⟨registered', c', client', ready⟩
    cases registered.symm.trans registered'
    cases client.symm.trans client'
    rw [unready] at ready
    cases ready
  cases seeks with
  | @takes i c registered client ready =>
    have hshows : Obtaining.shows n language before (.finished (.ok i)) =
        [.obtained n language i] := by
      cases place <;> rfl
    have hregistry : (if hasGate then m.leaveGate language (.operation n) else m).registry =
        m.registry := by
      split <;> rfl
    rw [hshows, hregistry]
    exact .takes ⟨registered, c, client, ready⟩
  | evicts registered client unready spoken phase child =>
    exact .nothing (erased (unserved registered client unready))
      fun _ _ ↦ Dictionary.get?_of_get?_erase
  | vacant vacant goesOn =>
    refine .goesOn place goesOn (fun behind ↦ ⟨?_, alone kept (held behind) own⟩)
      (fun _ _ serves ↦ serves.1) fun _ _ ↦ id
    rintro i ⟨registered, c, client, -⟩
    rw [vacant i registered] at client
    cases client
  | discards registered client gone goesOn =>
    have unready := unserved registered client (Client.isReady_eq_false_of_gone gone)
    exact .goesOn place goesOn (fun behind ↦ ⟨unready, alone kept (held behind) own⟩)
      (erased unready) fun _ _ ↦ Dictionary.get?_of_get?_erase

/-- A step of the way. -/
theorem step {o : Obtaining} (kept : m.Kept roles) (role : roles n = o.role language)
    (takes : Obtaining.Takes (.operation n) language m o p m') :
    Fair m roles (Obtaining.shows n language (some o) p) m'.registry := by
  cases takes with
  | evicts client stays => exact .still m roles
  | @evicted hasGate i c d k p n' client ends goesOn =>
    refine .goesOn (.evicting hasGate i k) goesOn (fun behind ↦ ?_)
      (fun _ _ serves ↦ serves.1) fun _ _ ↦ id
    subst behind
    have inside : (roles n).inside? = some language := by
      rw [role]
      rfl
    refine ⟨?_, alone kept (kept.held n language inside) fun j h ↦ ?_⟩
    · rintro j ⟨registered, -⟩
      rw [kept.unregistered n language inside] at registered
      cases registered
    · rw [role] at h
      cases h
  | enters held seeks =>
    refine .seeks kept .queued (fun _ ↦ held) (fun i h ↦ ?_) seeks
    rw [role] at h
    cases h
  | connects client stays => exact .still m roles
  | fails client ends => exact .still m roles
  | registers client spoken phase child vacant =>
    exact .registers role (kept.unregistered n language (by rw [role]; rfl))
  | displaces registered occupied =>
    have vacant := kept.unregistered n language (by rw [role]; rfl)
    rw [registered] at vacant
    cases vacant
  | displacing => exact absurd role (kept.inPlace n)

end Fair

namespace ManagerSession

variable {s₀ s t : ManagerSession} {h shown : ManagerHistory}

/-- Whatever happens is fair. -/
theorem Sound.fair (sound : s.Sound) (next : s.Moves shown t) :
    Fair s.manager s.roles shown t.manager.registry := by
  cases next with
  | start refusal n r fresh admitted managed =>
    have idle : s.roles n = .idle := roles_of_fresh fun h ↦ fresh (List.mem_append_left _ h)
    rw [(s.start_eq refusal n r).1, startShows]
    cases spoken : r.language? s.manager with
    | some language =>
      obtain ⟨goal, heq⟩ :=
        ManagerTask.exists_start_eq_follow (.operation n) s.now refusal spoken
      rw [heq, (ManagerTask.follow_spec ..).1]
      refine .seeks sound .outset (fun h ↦ by cases h) (fun i h ↦ ?_)
        (Obtaining.seeks_of_seek rfl)
      rw [idle] at h
      cases h
    | none =>
      have silent := ManagerTask.silent_start (.operation n) s.now refusal spoken managed
      rw [silent.1]
      simp only
      split
      · exact .clears s.manager s.roles
      · exact .still s.manager s.roles
  | advance refusal n step =>
    obtain ⟨task, p, going, hstep, -⟩ := exists_of_advance? step
    rw [advanceShows, going]
    cases task with
    | obtaining L goal o =>
      simp only [ManagerTask.step?, Option.map_eq_some_iff, Prod.exists] at hstep
      obtain ⟨q, m, hway, h⟩ := hstep
      have role : s.roles n = o.role L := roles_of_going going
      have registry := (ManagerTask.follow_spec (.operation n) L goal q m).1
      rw [h] at registry
      simp only [hway]
      rw [registry]
      exact .step sound role (Obtaining.takes_of_step? hway)
    | document | completion | shutdown | starting =>
      rw [(ManagerTask.silent_of_step? (by simp) hstep).1]
      exact .still s.manager s.roles
  | read i step =>
    obtain ⟨c, d, -, -, hmanager, -⟩ := exists_of_advanceReading? step
    rw [hmanager]
    exact .still s.manager s.roles
  | event e =>
    obtain ⟨-, hmanager | ⟨i, c, d, -, -, hmanager⟩⟩ := s.manager_happen e
    · rw [hmanager]
      exact .still s.manager s.roles
    · rw [hmanager]
      exact .still s.manager s.roles

/-! ### Runs -/

variable {L : String} {n i : Nat}

/-- The task starts a client of the language. -/
def Starts (s : ManagerSession) (n : Nat) (language : String) : Prop :=
  ∃ goal i k, s.tasks.state? n = some (.obtaining language goal (.connecting i k))

/-- Whoever starts a client is about that. -/
theorem Starts.exists_role (starts : s.Starts n L) : ∃ i, s.roles n = .connecting L i := by
  obtain ⟨goal, i, k, going⟩ := starts
  exact ⟨i, roles_of_going going⟩

/-- A client that is registered serves its language, if it was ready and is not lost. -/
theorem Sound.serves (sound : t.Sound) (registered : t.manager.registry.get? L = some i)
    (was : s.wasReady shown i = true) (unlost : lost L i ∉ s.losses shown t) :
    t.manager.Serves L i := by
  obtain ⟨c, client, rfl⟩ := sound.registered L i registered
  refine ⟨registered, c, client, ?_⟩
  rw [← Bool.not_eq_false]
  intro unready
  apply unlost
  have bound : i < t.manager.clients.length := by
    rw [Manager.client?, Option.map_eq_some_iff] at client
    obtain ⟨_, hi, _⟩ := client
    exact (List.getElem?_eq_some_iff.mp hi).1
  refine List.mem_filterMap.mpr ⟨i, List.mem_range.mpr bound, ?_⟩
  rw [client]
  simp [was, unready]

/-- The losses of a step are of clients. -/
theorem exists_of_mem_losses {x : ManagerOccurrence} (h : x ∈ s.losses shown t) :
    ∃ L i, x = lost L i := by
  obtain ⟨i, -, hx⟩ := List.mem_filterMap.mp h
  split at hx
  · next c _ =>
    split at hx
    · cases hx
      exact ⟨c.language, i, rfl⟩
    · cases hx
  · cases hx

/-- Whoever was registered or obtained for a language serves it, and no client of it was started
after one was registered. -/
structure Steady (language : String) (h : ManagerHistory) (m : Manager) : Prop where
  serves : ∀ n i, registered n language i ∈ h ∨ obtained n language i ∈ h → m.Serves language i
  ordered : h.Pairwise fun x y ↦ ∀ n i k, x = registered n language i → y ≠ began k language

/-- A step keeps a language steady if none of its clients is lost. -/
theorem Steady.moves (steady : Steady L h s.manager) (sound : s.Sound)
    (next : s.Moves shown t) (uncleared : cleared ∉ shown)
    (unlost : ∀ i, lost L i ∉ s.losses shown t) :
    Steady L (h ++ shown ++ s.losses shown t) t.manager := by
  have fair := sound.fair next
  have sound := sound.moves next
  have persists (i : Nat) (serves : s.manager.Serves L i) : t.manager.Serves L i := by
    refine sound.serves (fair.persists uncleared L i serves) ?_ (unlost i)
    obtain ⟨-, c, client, ready⟩ := serves
    simp [wasReady, client, ready]
  have registers (n i : Nat) (hi : registered n L i ∈ shown) : t.manager.Serves L i := by
    refine sound.serves (fair.registered n L i hi).2.2.1 ?_ (unlost i)
    rw [wasReady, Bool.or_eq_true, List.any_eq_true]
    exact .inr ⟨_, hi, by simp⟩
  constructor
  · intro n i hi
    simp only [List.mem_append] at hi
    obtain ((hi | hi) | hi) | ((hi | hi) | hi) := hi
    · exact persists i (steady.serves n i (.inl hi))
    · exact registers n i hi
    · obtain ⟨_, _, h⟩ := exists_of_mem_losses hi
      cases h
    · exact persists i (steady.serves n i (.inr hi))
    · obtain hi | serves := fair.obtained n L i hi
      · exact registers n i hi
      · exact persists i serves
    · obtain ⟨_, _, h⟩ := exists_of_mem_losses hi
      cases h
  · refine List.pairwise_append.mpr ⟨List.pairwise_append.mpr ⟨steady.ordered, ?_, ?_⟩, ?_, ?_⟩
    · refine List.pairwise_of_forall_mem_list fun x hx y hy n i k hxi hyk ↦ ?_
      subst hxi hyk
      exact (fair.registered n L i hx).2.2.2 k hy
    · rintro x hx y hy n i k rfl rfl
      exact (fair.began k L hy).1 i (steady.serves n i (.inl hx))
    · refine List.pairwise_of_forall_mem_list fun x hx y hy n i k hxi hyk ↦ ?_
      obtain ⟨_, _, h⟩ := exists_of_mem_losses hx
      rw [h] at hxi
      cases hxi
    · rintro x hx y hy n i k hxi rfl
      obtain ⟨_, _, h⟩ := exists_of_mem_losses hy
      cases h

/-- A language stays steady along a run as long as none of its clients is lost. -/
theorem Run.steady (run : Run s₀ h s) (new : s₀.IsNew) (uncleared : cleared ∉ h)
    (unlost : ∀ i, lost L i ∉ h) : Steady L h s.manager := by
  induction run with
  | begins => exact ⟨fun n i hi ↦ by simp at hi, .nil⟩
  | moves run next ih =>
    simp only [List.mem_append, not_or] at uncleared unlost
    exact (ih uncleared.1.1 fun i ↦ (unlost i).1.1).moves (run.sound new) next uncleared.1.2
      fun i ↦ (unlost i).2

/-- In every run of a new manager, one task at most starts a client of a normalized language.
Whatever happens next, a client is started only if none serves its language and none of it is being
started, and a client is registered only where none is. As long as no client of a language is lost
and not all are to be shut down, none is started after one was registered, and everybody obtains the
same. -/
theorem one_start_per_language (new : s₀.IsNew) (run : Run s₀ h s) :
    (∀ n k L L', s.Starts n L → s.Starts k L' →
      Language.normalize L = Language.normalize L' → n = k) ∧
    (∀ shown t, s.Moves shown t →
      (∀ n L, began n L ∈ shown → (∀ i, ¬ s.manager.Serves L i) ∧ ∀ k, ¬ s.Starts k L) ∧
      ∀ n L i, registered n L i ∈ shown →
        s.manager.registry.get? L = none ∧ t.manager.registry.get? L = some i) ∧
    ∀ L, cleared ∉ h → (∀ i, lost L i ∉ h) →
      (∀ past n i future, h = past ++ registered n L i :: future → ∀ k, began k L ∉ future) ∧
      ∃ i, ∀ n j, registered n L j ∈ h ∨ obtained n L j ∈ h → j = i := by
  have sound := run.sound new
  refine ⟨?_, ?_, ?_⟩
  · intro n k L L' first second same
    obtain ⟨i, first⟩ := first.exists_role
    obtain ⟨j, second⟩ := second.exists_role
    rw [run.normalize_eq new (n := n) (by rw [first]; rfl),
      run.normalize_eq new (n := k) (by rw [second]; rfl)] at same
    subst same
    exact sound.eq_of_inside (by rw [first]; rfl) (by rw [second]; rfl)
  · intro shown t next
    have fair := sound.fair next
    refine ⟨fun n L hn ↦ ⟨(fair.began n L hn).1, fun k starts ↦ ?_⟩, fun n L i hi ↦ ?_⟩
    · obtain ⟨i, role⟩ := starts.exists_role
      exact (fair.began n L hn).2 k i role
    · obtain ⟨-, vacant, registered, -⟩ := fair.registered n L i hi
      exact ⟨vacant, registered⟩
  · intro L uncleared unlost
    have steady := run.steady new uncleared unlost
    constructor
    · rintro past n i future rfl k hk
      have ordered := (List.pairwise_append.mp steady.ordered).2.1
      exact (List.pairwise_cons.mp ordered).1 _ hk n i k rfl rfl
    · -- All of them are the one that is registered.
      refine ⟨(s.manager.registry.get? L).getD 0, fun n j hj ↦ ?_⟩
      rw [(steady.serves n j hj).1]
      rfl

/-- Two tasks ask for the client of a language, in two spellings. -/
def sharedStart : ManagerHistory × ManagerSession :=
  play ([.client 0 "Python", .client 1 " python ", .advance 0] ++ handshake 0 0 ++ [.advance 1])
    ([], hub)

/-- One of the two starts the client. -/
private theorem history_sharedStart :
    sharedStart.1 = [began 0 "python", registered 0 "python" 0, obtained 0 "python" 0,
      obtained 1 "python" 0] := by
  decide +kernel

/-- No other client is started after the first one, and both tasks obtain that one. -/
theorem obtained_sharedStart :
    hub.IsNew ∧ hub.Run sharedStart.1 sharedStart.2 ∧
    sharedStart.1 = [began 0 "python"] ++ registered 0 "python" 0 ::
      [obtained 0 "python" 0, obtained 1 "python" 0] ∧
    (∀ k, began k "python" ∉ [obtained 0 "python" 0, obtained 1 "python" 0]) ∧
    ∃ i, ∀ n j, registered n "python" j ∈ sharedStart.1 ∨ obtained n "python" j ∈ sharedStart.1 →
      j = i := by
  have run : hub.Run sharedStart.1 sharedStart.2 := Run.begins.play _
  have settled := (one_start_per_language isNew_hub run).2.2 "python"
    (by simp [history_sharedStart]) (by simp [history_sharedStart])
  have split : sharedStart.1 = [began 0 "python"] ++ registered 0 "python" 0 ::
      [obtained 0 "python" 0, obtained 1 "python" 0] := history_sharedStart
  exact ⟨isNew_hub, run, split, settled.1 _ _ _ _ split, settled.2⟩

/-! ### The processes of a language -/

variable {j : Nat} {language : String}

/-- The process of a client of the normalized language runs. -/
def RunsFor (s : ManagerSession) (language : String) (i : Nat) : Prop :=
  ∃ c, s.manager.client? i = some c ∧ Language.normalize c.language = language ∧
    c.child = some .running

/-- A task shuts the client down, now or later. -/
def Stopping (s : ManagerSession) (i : Nat) : Prop := ∃ n, (s.roles n).Stops i

/-- The languages that clients are registered for are normalized. -/
theorem Run.normalize_eq_of_registered (run : Run s₀ h s) (new : s₀.IsNew)
    (registered : s.manager.registry.get? language = some i) :
    Language.normalize language = language := by
  induction run generalizing i with
  | begins =>
    rw [new.registry] at registered
    cases registered
  | moves run next ih =>
    have fair := (run.sound new).fair next
    obtain before | ⟨n, hn⟩ := fair.grows language i registered
    · exact ih before
    · have role := (fair.registered n language i hn).1
      exact run.normalize_eq new (n := n) (by rw [role]; rfl)

/-- The client is registered for the language, or it is being started. -/
def Current (s : ManagerSession) (language : String) (i : Nat) : Prop :=
  s.manager.registry.get? language = some i ∨ ∃ n, s.roles n = .connecting language i

/-- One client at most of a language is registered or being started. -/
theorem Sound.eq_of_current (sound : s.Sound) (first : s.Current language i)
    (second : s.Current language j) : i = j := by
  have inside {n k : Nat} (role : s.roles n = .connecting language k) :
      (s.roles n).inside? = some language := by
    rw [role]
    rfl
  obtain first | ⟨n, first⟩ := first
  · obtain second | ⟨k, second⟩ := second
    · rw [first] at second
      exact Option.some.inj second
    · rw [sound.unregistered k language (inside second)] at first
      cases first
  · obtain second | ⟨k, second⟩ := second
    · rw [sound.unregistered n language (inside first)] at second
      cases second
    · obtain rfl := sound.eq_of_inside (inside first) (inside second)
      rw [first] at second
      cases second
      rfl

/-- A process that runs and is not being stopped is that of a client that is registered or being
started. -/
theorem Run.current_of_runsFor (run : Run s₀ h s) (new : s₀.IsNew)
    (runs : s.RunsFor language i) (unstopped : ¬ s.Stopping i) : s.Current language i := by
  obtain ⟨c, client, rfl, running⟩ := runs
  obtain registered | ⟨n, role⟩ | stops := (run.sound new).watched i c client running
  · rw [run.normalize_eq_of_registered new registered]
    exact .inl registered
  · rw [run.normalize_eq new (n := n) (by rw [role]; rfl)]
    exact .inr ⟨n, role⟩
  · exact absurd stops unstopped

/-- In every run of a new manager, all processes of a language that run but one are being
stopped. -/
theorem stopping_of_runsFor (new : s₀.IsNew) (run : Run s₀ h s) (first : s.RunsFor language i)
    (second : s.RunsFor language j) (different : i ≠ j) : s.Stopping i ∨ s.Stopping j := by
  by_contra unstopped
  rw [not_or] at unstopped
  exact different ((run.sound new).eq_of_current (run.current_of_runsFor new first unstopped.1)
    (run.current_of_runsFor new second unstopped.2))

/-- The client that was given is shut down, and another one is asked for. -/
def stoppedAndStarted : ManagerHistory × ManagerSession :=
  play ([.client 0 "python", .advance 0] ++ handshake 0 0 ++
    [.stop 1 0, .client 2 "python", .advance 2]) ([], hub)

/-- Two processes run at its end. -/
private theorem runsFor_stoppedAndStarted {i : Nat} (bound : i < 2) :
    stoppedAndStarted.2.RunsFor "python" i := by
  have runs : ∀ i < 2, (stoppedAndStarted.2.manager.client? i).any fun c ↦
      Language.normalize c.language = "python" && c.child = some .running := by
    decide +kernel
  have runs := runs i bound
  cases client : stoppedAndStarted.2.manager.client? i with
  | none =>
    rw [client] at runs
    cases runs
  | some c =>
    rw [client, Option.any_some, Bool.and_eq_true, decide_eq_true_eq, decide_eq_true_eq] at runs
    exact ⟨c, client, runs⟩

/-- One of the two is being stopped. -/
theorem stopping_stoppedAndStarted :
    hub.IsNew ∧ hub.Run stoppedAndStarted.1 stoppedAndStarted.2 ∧
    stoppedAndStarted.2.RunsFor "python" 0 ∧ stoppedAndStarted.2.RunsFor "python" 1 ∧
    (stoppedAndStarted.2.Stopping 0 ∨ stoppedAndStarted.2.Stopping 1) := by
  have run : hub.Run stoppedAndStarted.1 stoppedAndStarted.2 := Run.begins.play _
  have first := runsFor_stoppedAndStarted (i := 0) (by decide)
  have second := runsFor_stoppedAndStarted (i := 1) (by decide)
  exact ⟨isNew_hub, run, first, second,
    stopping_of_runsFor isNew_hub run first second (by decide)⟩

/-- Two processes of one language can run at once. -/
theorem exists_two_processes :
    ∃ s₀ h s, s₀.IsNew ∧ Run s₀ h s ∧ ∃ language i j,
      s.RunsFor language i ∧ s.RunsFor language j ∧ i ≠ j :=
  ⟨hub, stoppedAndStarted.1, stoppedAndStarted.2, isNew_hub, Run.begins.play _, "python", 0, 1,
    runsFor_stoppedAndStarted (by decide), runsFor_stoppedAndStarted (by decide), by decide⟩

end ManagerSession

end LanguageHub
