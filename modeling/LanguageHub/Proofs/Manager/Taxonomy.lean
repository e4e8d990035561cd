import LanguageHub.Proofs.Manager.Acts
import LanguageHub.Proofs.Manager.FailedStarts
import LanguageHub.Proofs.Manager.Outcomes

/-!
# Which operations fail in which way

Operations on documents fail only because no server is reached, and so do operations that give a
client. A completion fails besides by an error of the server, when its time is over, or because the
first response to its call is no answer to a request for completions. Nothing else that a server
sends makes an operation fail (`failures_by_kind`).
-/

namespace LanguageHub

open ServerMessage

/-- What a task has come to, as its state if it goes on. -/
def Progress.state? {σ α : Type} : Progress σ α → Option σ
  | running state => some state
  | finished _ => none

/-- What a task has come to, as its answer if it has ended. -/
def Progress.answer? {σ α : Type} : Progress σ α → Option α
  | running _ => none
  | finished answer => some answer

/-! ### Managers -/

namespace Manager

variable {a : Agent} {about : String → Prop} {m n : Manager} {shown : Reports} {i : Nat}
  {c d : Client}

/-- Whoever waits in the table of a client can be reached, and clients are given the time of the
manager, if any. -/
def Regular (m : Manager) : Prop :=
  ∀ i c, m.client? i = some c →
    c.connection.table.Tidy ∧ (c.limit = none ∨ c.limit = m.limit)

/-- The manager after an operation has taken a step. -/
theorem Regular.moves (regular : m.Regular) (moves : m.Moves a about n) : n.Regular := by
  intro i d client
  rw [moves.limit]
  exact moves.all_clients
    (P := fun c ↦ c.connection.table.Tidy ∧ (c.limit = none ∨ c.limit = m.limit))
    (fun _ _ _ given ↦ ⟨.empty, given⟩)
    (fun c d kept moves ↦ ⟨moves.connection.onward.table.tidy kept.1, moves.limit ▸ kept.2⟩)
    regular client

/-- The manager after one client has changed. -/
theorem Regular.setClient (regular : m.Regular) (client : m.client? i = some c)
    (tidy : d.connection.table.Tidy) (limit : d.limit = c.limit) : (m.setClient i d).Regular := by
  intro j e found
  obtain ⟨-, rfl⟩ | ⟨-, found⟩ := eq_or_client?_of_setClient client found
  · exact ⟨tidy, limit ▸ (regular i c client).2⟩
  · exact regular j e found

/-- The managers before and after something was shown: what has become of the calls agrees with the
responses that were heard. -/
structure Heeds (m : Manager) (shown : Reports) (n : Manager) : Prop where
  limit : n.limit = m.limit
  clients : ∀ i c, m.client? i = some c → ∃ d, n.client? i = some d ∧
    ∀ id ticket answer?, c.connection.table.Agrees id ticket answer? →
      d.connection.table.Agrees id ticket (answer?.or (firstAnswer? id (shown.bodies i)))

/-- A step of an operation. -/
theorem Heeds.of_moves (regular : m.Regular) (moves : m.Moves a about n)
    (unheard : ∀ i, shown.bodies i = []) : Heeds m shown n where
  limit := moves.limit
  clients i c client := by
    obtain ⟨d, found, moves⟩ := moves.exists_client? client
    refine ⟨d, found, fun id ticket answer? agrees ↦ ?_⟩
    rw [unheard, firstAnswer?, List.findSome?_nil, Option.or_none]
    exact moves.connection.agrees (regular i c client).1 agrees

/-- A change of one client. -/
theorem Heeds.of_setClient (client : m.client? i = some c)
    (own : ∀ id ticket answer?, c.connection.table.Agrees id ticket answer? →
      d.connection.table.Agrees id ticket (answer?.or (firstAnswer? id (shown.bodies i))))
    (others : ∀ j, j ≠ i → shown.bodies j = []) : Heeds m shown (m.setClient i d) where
  limit := rfl
  clients j e found := by
    rw [client?_setClient_of_some client]
    split
    · next same =>
      subst same
      rw [client] at found
      cases found
      exact ⟨d, rfl, own⟩
    · next other =>
      refine ⟨e, found, fun id ticket answer? agrees ↦ ?_⟩
      rw [others j other, firstAnswer?, List.findSome?_nil, Option.or_none]
      exact agrees

end Manager

/-! ### Operations -/

/-- Where an operation stands that is going on, by what was shown. -/
inductive ManagerTask.Stands (reports : Reports) (m : Manager) (n : Nat) : ManagerTask → Prop where
  | unsent {task : ManagerTask} (unsent : ∀ i call, task ≠ .completion i call)
      (uncalled : reports.call? n = none) : Stands reports m n task
  | sent {i : Nat} {call : Call} {c : Client} {rest : Reports} (client : m.client? i = some c)
      (called : reports.call? n = some (i, call.id, rest))
      (agrees : c.connection.table.Agrees call.id call.ticket
        (firstAnswer? call.id (rest.bodies i)))
      (limited : call.limit = none ∨ call.limit = m.limit) :
      Stands reports m n (.completion i call)

/-- An operation that takes no step stands where it stood. -/
theorem ManagerTask.Stands.later {task : ManagerTask} {reports shown : Reports} {m m' : Manager}
    {n : Nat} (stands : Stands reports m n task) (uncalled : shown.call? n = none)
    (heeds : m.Heeds shown m') : Stands (reports ++ shown) m' n task := by
  cases stands with
  | unsent unsent uncalled' =>
    exact .unsent unsent ((Reports.call?_append_of_none uncalled' shown).trans uncalled)
  | @sent i call c rest client called agrees limited =>
    obtain ⟨d, found, heeded⟩ := heeds.clients i c client
    refine .sent found (Reports.call?_append_of_some called shown) ?_ (heeds.limit ▸ limited)
    rw [Reports.bodies_append, firstAnswer?_append]
    exact heeded _ _ _ agrees

/-- The server does not change the time that requests are given. -/
theorem ServerEvent.limit_apply (e : ServerEvent) (c : Client) : (e.apply c).limit = c.limit := by
  cases e <;> rfl

/-- A completion request that is given some time, if any, fails as one that is given it. -/
theorem CompletionFails.mono {limit other : Option Duration} {answer? : Option Outcome}
    {f : Failure} (fails : CompletionFails limit answer? f) (given : limit = none ∨ limit = other) :
    CompletionFails other answer? f := by
  cases fails with
  | transport reason => exact .transport reason
  | timeout limited =>
    obtain given | given := given
    · rw [given] at limited
      cases limited
    · exact .timeout (given ▸ limited)
  | rpc answered => exact .rpc answered
  | malformed answered undecoded => exact .malformed answered undecoded

/-- How an operation of some kind fails that is given a time and has received an answer. -/
inductive OperationKind.Fails (limit : Option Duration) (answer? : Option Outcome) :
    OperationKind → Failure → Prop where
  | unreached {kind : OperationKind} {f : Failure} (fallible : kind ≠ .shutdown)
      (unreached : f.isUnreached = true) : Fails limit answer? kind f
  | completion {f : Failure} (fails : CompletionFails limit answer? f) :
      Fails limit answer? .completion f

/-- What was shown later makes no difference to a failure. -/
theorem OperationKind.Fails.later {reports : Reports} {limit : Option Duration} {n : Nat}
    {kind : OperationKind} {f : Failure} (fails : kind.Fails limit (reports.answer? n) f)
    (shown : Reports) : kind.Fails limit ((reports ++ shown).answer? n) f := by
  cases fails with
  | unreached fallible unreached => exact .unreached fallible unreached
  | completion fails =>
    refine .completion ?_
    cases fails with
    | transport reason => exact .transport reason
    | timeout limited => exact .timeout limited
    | rpc answered => exact .rpc (Reports.answer?_append_of_some answered shown)
    | malformed answered undecoded =>
      exact .malformed (Reports.answer?_append_of_some answered shown) undecoded

namespace ManagerSession

variable {s₀ s t : ManagerSession} {reports shown : Reports} {n : Nat}

/-! ### Steps of operations -/

/-- With a step the operation with this number has come to this. -/
structure Comes (s : ManagerSession) (n : Nat) (p : Progress ManagerTask ManagerAnswer)
    (t : ManagerSession) : Prop where
  state : ∀ k, t.tasks.state? k = if k = n then p.state? else s.tasks.state? k
  answer : ∀ k, t.tasks.answer? k = if k = n then p.answer? else s.tasks.answer? k

/-- The answer of an operation that has none, as it goes on. -/
private theorem answer?_goesOn (unanswered : s.tasks.answer? n = none) (k : Nat) :
    s.tasks.answer? k = if k = n then none else s.tasks.answer? k := by
  split
  · next own => rw [own, unanswered]
  · rfl

/-- The answer of an operation that had none, as it ends. -/
private theorem answer?_ends (unanswered : s.tasks.answer? n = none) (answer : ManagerAnswer)
    (k : Nat) : (s.tasks.finish n answer).answer? k =
      if k = n then some answer else s.tasks.answer? k := by
  rw [Tasks.answer?_finish]
  split
  · next own => rw [own, unanswered, Option.none_or]
  · exact Option.or_none

/-- An operation that begins. -/
theorem exists_comes_start (s : ManagerSession) (refusal : Refusal) (r : ManagerRequest)
    (fresh : n ∉ s.numbers) :
    ∃ p, ManagerTask.start (.operation n) s.now refusal r s.manager =
      (p, (s.start refusal n r).manager) ∧ s.Comes n p (s.start refusal n r) := by
  have unused : n ∉ s.tasks.numbers := fun h ↦ fresh (List.mem_append_left _ h)
  have unanswered : s.tasks.answer? n = none :=
    Tasks.answer?_eq_none_iff.mpr fun h ↦ fresh (List.mem_append_right _ h)
  unfold start
  split
  · next task m hstart =>
    exact ⟨_, hstart, Tasks.state?_start unused task, answer?_goesOn unanswered⟩
  · next answer m hstart =>
    exact ⟨_, hstart, Tasks.state?_finish s.tasks n answer, answer?_ends unanswered answer⟩

/-- An operation that goes on. -/
theorem exists_comes_advance {refusal : Refusal} (apart : s.tasks.Apart)
    (step : s.advance? refusal n = some t) :
    ∃ task p, s.tasks.state? n = some task ∧
      task.step? (.operation n) s.now refusal s.manager = some (p, t.manager) ∧ s.Comes n p t := by
  simp only [advance?, Option.bind_eq_bind, Option.bind_eq_some_iff, Prod.exists] at step
  obtain ⟨task, going, p, m, hstep, h⟩ := step
  have unanswered : s.tasks.answer? n = none := apart n (by simp [going])
  cases p with
  | running next =>
    cases h
    refine ⟨task, _, going, hstep, fun k ↦ ?_, answer?_goesOn unanswered⟩
    rw [Tasks.state?_update, going]
    rfl
  | finished answer =>
    cases h
    exact ⟨task, _, going, hstep, Tasks.state?_finish s.tasks n answer,
      answer?_ends unanswered answer⟩

/-- The call of an operation that has not been sent before. -/
theorem asks_eq {p : Progress ManagerTask ManagerAnswer} (comes : s.Comes n p t)
    (unsent : ∀ i call, s.tasks.state? n ≠ some (.completion i call)) :
    (∀ i call, p = .running (.completion i call) → s.asks t n = [.asked n i call.id]) ∧
    ((∀ i call, p ≠ .running (.completion i call)) → s.asks t n = []) := by
  have state : t.tasks.state? n = p.state? := (comes.state n).trans (if_pos rfl)
  unfold asks
  rw [state]
  constructor
  · rintro i call rfl
    split
    · next before => exact absurd before (unsent _ _)
    · next after _ =>
      cases after
      rfl
    · next other =>
      exact absurd rfl (other i call)
  · intro elsewhere
    split
    · rfl
    · next i call after _ =>
      cases p with
      | running task =>
        cases after
        exact absurd rfl (elsewhere i call)
      | finished => cases after
    · rfl

/-! ### Sessions -/

/-- What was shown agrees with the tasks and their answers. -/
structure Reported (reports : Reports) (s : ManagerSession) : Prop where
  apart : s.tasks.Apart
  regular : s.manager.Regular
  plain : s.tasks.All fun task ↦ task.Plain ∧ ∀ i k, task = .starting i k → k.Plain
  fresh : ∀ n, n ∉ s.numbers → reports.call? n = none ∧ ∀ r, .begun n r ∉ reports
  running : ∀ n task, s.tasks.state? n = some task → task.Stands reports s.manager n ∧
    ∀ r, .begun n r ∈ reports → task.kind = r.kind
  failed : ∀ n f, s.failure? n = some f → ∀ r, .begun n r ∈ reports →
    r.kind.Fails s.manager.limit (reports.answer? n) f

namespace Reported

/-- Operations that take no step are as before. -/
theorem frame (reported : s.Reported reports)
    (heeds : s.manager.Heeds shown t.manager) (uncalled : shown.call? n = none)
    (unbegun : ∀ r, .begun n r ∉ shown) :
    (n ∉ s.numbers → (reports ++ shown).call? n = none ∧ ∀ r, .begun n r ∉ reports ++ shown) ∧
    (∀ task, s.tasks.state? n = some task → task.Stands (reports ++ shown) t.manager n ∧
      ∀ r, .begun n r ∈ reports ++ shown → task.kind = r.kind) ∧
    ∀ f, s.failure? n = some f → ∀ r, .begun n r ∈ reports ++ shown →
      r.kind.Fails t.manager.limit ((reports ++ shown).answer? n) f := by
  have old {r : ManagerRequest} (mem : Report.begun n r ∈ reports ++ shown) :
      .begun n r ∈ reports := (List.mem_append.mp mem).resolve_right (unbegun r)
  refine ⟨fun unused ↦ ?_, fun task going ↦ ?_, fun f failed r begun ↦ ?_⟩
  · obtain ⟨uncalled', unbegun'⟩ := reported.fresh n unused
    exact ⟨(Reports.call?_append_of_none uncalled' shown).trans uncalled,
      fun r begun ↦ unbegun' r (old begun)⟩
  · obtain ⟨stands, kind⟩ := reported.running n task going
    exact ⟨stands.later uncalled heeds, fun r begun ↦ kind r (old begun)⟩
  · rw [heeds.limit]
    exact (reported.failed n f failed r (old begun)).later shown

/-- No operation takes a step. -/
theorem still (reported : s.Reported reports) (tasks : t.tasks = s.tasks)
    (regular : t.manager.Regular) (heeds : s.manager.Heeds shown t.manager)
    (silent : ∀ n, shown.call? n = none ∧ ∀ r, .begun n r ∉ shown) :
    t.Reported (reports ++ shown) where
  apart := tasks ▸ reported.apart
  regular := regular
  plain := tasks ▸ reported.plain
  fresh n unused := by
    rw [numbers, tasks] at unused
    exact (reported.frame heeds (silent n).1 (silent n).2).1 unused
  running n task going := by
    rw [tasks] at going
    exact (reported.frame heeds (silent n).1 (silent n).2).2.1 task going
  failed n f failed := by
    rw [failure?, tasks] at failed
    exact (reported.frame heeds (silent n).1 (silent n).2).2.2 f failed

/-- One operation takes a step. -/
theorem comes (reported : s.Reported reports) {p : Progress ManagerTask ManagerAnswer}
    (comes : s.Comes n p t) (regular : t.manager.Regular)
    (heeds : s.manager.Heeds shown t.manager) (own : ∀ x ∈ shown, x.IsOf n)
    (running : ∀ task, p = .running task → task.Stands (reports ++ shown) t.manager n ∧
      (task.Plain ∧ ∀ i k, task = .starting i k → k.Plain) ∧
      ∀ r, .begun n r ∈ reports ++ shown → task.kind = r.kind)
    (failed : ∀ answer f, p = .finished answer → answer.failure? = some f →
      ∀ r, .begun n r ∈ reports ++ shown →
        r.kind.Fails t.manager.limit ((reports ++ shown).answer? n) f) :
    t.Reported (reports ++ shown) := by
  have frame {k : Nat} (other : k ≠ n) := reported.frame heeds (Reports.call?_of_isOf own other)
    fun _ mem ↦ other (own _ mem)
  have going {k : Nat} {task : ManagerTask} (state : t.tasks.state? k = some task) :
      k = n ∧ p = .running task ∨ k ≠ n ∧ s.tasks.state? k = some task := by
    rw [comes.state] at state
    split at state
    · next own =>
      cases p with
      | running => exact .inl ⟨own, by cases state; rfl⟩
      | finished => cases state
    · next other => exact .inr ⟨other, state⟩
  refine ⟨fun k state ↦ ?_, regular, fun k task state ↦ ?_, fun k unused ↦ ?_,
    fun k task state ↦ ?_, fun k f failure ↦ ?_⟩
  · obtain ⟨task, state⟩ := Option.ne_none_iff_exists'.mp state
    rw [comes.answer]
    obtain ⟨own, rfl⟩ | ⟨other, state⟩ := going state
    · rw [if_pos own]
      rfl
    · rw [if_neg other]
      exact reported.apart k (by simp [state])
  · obtain ⟨-, rfl⟩ | ⟨-, state⟩ := going state
    · exact (running task rfl).2.1
    · exact reported.plain k task state
  · rw [mem_numbers_iff, not_or, Decidable.not_not, Decidable.not_not, comes.state,
      comes.answer] at unused
    split at unused
    · -- Whoever has taken a step goes on or has ended.
      cases p with
      | running => cases unused.1
      | finished => cases unused.2
    · next other =>
      refine (frame other).1 ?_
      rw [mem_numbers_iff, not_or, Decidable.not_not, Decidable.not_not]
      exact unused
  · obtain ⟨rfl, rfl⟩ | ⟨other, state⟩ := going state
    · exact ⟨(running task rfl).1, (running task rfl).2.2⟩
    · exact (frame other).2.1 task state
  · rw [failure?, comes.answer] at failure
    split at failure
    · next own =>
      subst own
      cases p with
      | running => cases failure
      | finished answer => exact failed answer f rfl failure
    · next other => exact (frame other).2.2 f failure

/-- An operation that has sent no request takes a step. -/
theorem proceeds (reported : s.Reported reports) {p : Progress ManagerTask ManagerAnswer}
    (comes : s.Comes n p t) {about : String → Prop}
    (moves : s.manager.Moves (.operation n) about t.manager)
    (unsent : ∀ i call, s.tasks.state? n ≠ some (.completion i call))
    (uncalled : reports.call? n = none) {kind : OperationKind}
    (proceeds : ManagerTask.Proceeds kind t.manager p)
    (plain : ∀ task, p = .running task → task.Plain) {begins : Reports}
    (only : ∀ x ∈ begins, ∃ r, x = .begun n r)
    (own : ∀ r, .begun n r ∈ reports ++ begins → kind = r.kind) :
    t.Reported (reports ++ (begins ++ s.asks t n)) := by
  have asked := s.asks_cases t n
  have ownShown : ∀ x ∈ begins ++ s.asks t n, x.IsOf n := by
    intro x mem
    obtain mem | mem := List.mem_append.mp mem
    · obtain ⟨r, rfl⟩ := only x mem
      rfl
    · obtain asked | ⟨i, id, asked⟩ := asked
      · simp [asked] at mem
      · rw [asked, List.mem_singleton] at mem
        rw [mem]
        rfl
  have regular := reported.regular.moves moves
  have heeds := Manager.Heeds.of_moves reported.regular moves (Reports.bodies_of_isOf ownShown)
  have begun {r : ManagerRequest} (mem : .begun n r ∈ reports ++ (begins ++ s.asks t n)) :
      kind = r.kind := by
    rw [← List.append_assoc, List.mem_append] at mem
    refine own r (mem.resolve_right fun mem ↦ ?_)
    obtain asked | ⟨j, id, asked⟩ := asked <;> simp [asked] at mem
  have called : (reports ++ (begins ++ s.asks t n)).call? n = (s.asks t n).call? n := by
    rw [Reports.call?_append_of_none uncalled,
      Reports.call?_append_of_none (Reports.call?_of_begun only)]
  refine reported.comes comes regular heeds ownShown (fun task goesOn ↦ ?_)
    fun answer f ended failed r mem ↦ ?_
  · have calm := plain task goesOn
    subst goesOn
    cases proceeds with
    | goesOn own' unsent' plain' =>
      refine ⟨.unsent unsent' ?_, ⟨calm, plain'⟩, fun r mem ↦ own'.trans (begun mem)⟩
      rw [called, (asks_eq comes unsent).2 fun i call same ↦ unsent' i call (by cases same; rfl)]
      rfl
    | @asks i call c own' client unanswered limited =>
      have sent : (reports ++ (begins ++ s.asks t n)).call? n = some (i, call.id, []) := by
        rw [called, (asks_eq comes unsent).1 i call rfl, Reports.call?, if_pos rfl]
      refine ⟨.sent client sent unanswered ?_, ⟨calm, fun _ _ same ↦ by cases same⟩,
        fun r mem ↦ own'.symm.trans (begun mem)⟩
      rw [limited]
      exact (regular i c client).2
  · subst ended
    rw [← begun mem]
    cases proceeds with
    | succeeds succeeded =>
      rw [succeeded] at failed
      cases failed
    | fails failed' fallible unreached =>
      rw [failed'] at failed
      cases failed
      exact .unreached fallible unreached

/-- A completion request that was sent takes a step. -/
theorem answers (reported : s.Reported reports) {i : Nat} {call : Call}
    (going : s.tasks.state? n = some (.completion i call))
    {p : Progress ManagerTask ManagerAnswer} {refusal : Refusal}
    (step : ManagerTask.step? (.operation n) s.now refusal (.completion i call) s.manager =
      some (p, t.manager))
    (comes : s.Comes n p t) : t.Reported (reports ++ []) := by
  have moves : s.manager.Moves (.operation n) (fun _ ↦ True) t.manager :=
    ManagerTask.moves_step? (fun _ _ _ _ ↦ trivial) step
  have heeds : s.manager.Heeds [] t.manager := .of_moves reported.regular moves fun _ ↦ rfl
  obtain ⟨-, same, -⟩ := reported.frame (n := n) heeds rfl fun _ ↦ List.not_mem_nil
  obtain ⟨stands, kind⟩ := reported.running n _ going
  simp only [ManagerTask.step?, Option.bind_eq_bind, Option.bind_eq_some_iff, Prod.exists] at step
  obtain ⟨c, client, q, d, hstep, h⟩ := step
  cases q with
  | running call' =>
    obtain ⟨id, ticket, limit⟩ := Client.same_of_stepCompletion? hstep
    obtain ⟨rfl, -⟩ := Prod.mk.inj (Option.some.inj h)
    refine reported.comes comes (reported.regular.moves moves) heeds (by simp)
      (fun task goesOn ↦ ?_) fun _ _ ended ↦ by cases ended
    cases goesOn
    obtain ⟨later, kind⟩ := same _ going
    refine ⟨?_, ⟨fun _ _ _ _ ↦ ManagerTask.noConfusion, fun _ _ ↦ ManagerTask.noConfusion⟩, kind⟩
    cases later with
    | unsent unsent => exact absurd rfl (unsent i call)
    | sent found called agrees limited =>
      rw [← id, ← ticket] at agrees
      rw [← id] at called
      rw [← limit] at limited
      exact .sent found called agrees limited
  | finished result =>
    obtain ⟨rfl, -⟩ := Prod.mk.inj (Option.some.inj h)
    refine reported.comes comes (reported.regular.moves moves) heeds (by simp)
      (fun _ goesOn ↦ by cases goesOn) fun answer f ended failed r mem ↦ ?_
    cases ended
    cases result with
    | ok items => cases failed
    | error g =>
      cases failed
      rw [List.append_nil] at mem ⊢
      cases stands with
      | unsent unsent => exact absurd rfl (unsent i call)
      | @sent _ _ c' rest found called agrees limited =>
        rw [found] at client
        cases client
        have fails := Client.fails_of_stepCompletion? agrees
          (fun _ ↦ exists_rpc_of_firstAnswer?) hstep
        have answer : reports.answer? n = firstAnswer? call.id (rest.bodies i) := by
          rw [Reports.answer?, called]
          rfl
        rw [← kind r mem, answer, heeds.limit]
        exact .completion (fails.mono limited)

/-- An operation begins. -/
theorem starts (reported : s.Reported reports) (refusal : Refusal) {r : ManagerRequest}
    (fresh : n ∉ s.numbers) : (s.start refusal n r).Reported
      (reports ++ .begun n r :: s.asks (s.start refusal n r) n) := by
  obtain ⟨p, hstart, comes⟩ := s.exists_comes_start refusal r fresh
  have moves : s.manager.Moves (.operation n) (fun _ ↦ True) (s.start refusal n r).manager := by
    rw [(s.start_eq refusal n r).1]
    exact ManagerTask.moves_start _ _ _ _ _ (fun _ _ ↦ trivial) (fun _ _ ↦ trivial)
      fun _ _ _ ↦ trivial
  have only : ∀ x ∈ [Report.begun n r], ∃ r, x = .begun n r := by simp
  have idle : s.tasks.state? n = none :=
    Tasks.state?_eq_none_iff.mpr fun h ↦ fresh (List.mem_append_left _ h)
  obtain ⟨uncalled, unbegun⟩ := reported.fresh n fresh
  refine reported.proceeds comes moves (by simp [idle]) uncalled
    (ManagerTask.proceeds_start hstart) (fun task goesOn ↦ ?_) only fun r' mem ↦ ?_
  · rw [goesOn] at hstart
    exact ManagerTask.plain_of_start hstart
  · obtain mem | mem := List.mem_append.mp mem
    · exact absurd mem (unbegun r')
    · cases List.mem_singleton.mp mem
      rfl

/-- An operation goes on. -/
theorem advances (reported : s.Reported reports) {refusal : Refusal}
    (step : s.advance? refusal n = some t) : t.Reported (reports ++ s.asks t n) := by
  obtain ⟨task, p, going, hstep, comes⟩ := exists_comes_advance reported.apart step
  obtain ⟨stands, kind⟩ := reported.running n task going
  obtain ⟨plain, plain'⟩ := reported.plain n task going
  -- Only a request that was sent can fail by what the server answers.
  cases stands with
  | unsent unsent uncalled =>
    have moves : s.manager.Moves (.operation n) (fun _ ↦ True) t.manager :=
      ManagerTask.moves_step? (fun _ _ _ _ ↦ trivial) hstep
    have only : ∀ x ∈ ([] : Reports), ∃ r, x = .begun n r := by simp
    refine reported.proceeds comes moves
      (fun i call sent ↦ unsent i call (Option.some.inj (going.symm.trans sent))) uncalled
      (ManagerTask.proceeds_step? plain plain' unsent hstep) (fun next goesOn ↦ ?_) only
      fun r mem ↦ kind r (by simpa using mem)
    rw [goesOn] at hstep
    exact plain.step hstep
  | sent =>
    have unasked : s.asks t n = [] := by
      unfold asks
      rw [going]
    rw [unasked]
    exact reported.answers going hstep comes

/-- The task that reads of a client takes a step. -/
theorem reads (reported : s.Reported reports) {i : Nat} (step : s.advanceReading? i = some t) :
    t.Reported (reports ++ (s.body? i).toList.map (.heard i)) := by
  obtain ⟨c, d, event, client, hstep, hmanager, htasks⟩ := exists_stepReading? step
  obtain ⟨limit, notice, hread⟩ := Client.exists_stepReading? hstep
  obtain ⟨tidy, -⟩ := reported.regular i c client
  have tidy' := (Connection.readingStep_of_stepReading? hread).onward.table.tidy tidy
  refine reported.still htasks ?_ ?_ fun n ↦ ⟨Reports.call?_heard _ i n, fun r mem ↦ ?_⟩
  · rw [hmanager]
    exact reported.regular.setClient client tidy' limit
  · rw [hmanager]
    refine .of_setClient client (fun id ticket answer? agrees ↦ ?_) fun j other ↦ ?_
    · have heard : firstAnswer? id (Reports.bodies ((s.body? i).toList.map (.heard i)) i) =
          c.connection.body?.bind (answerTo? id) := by
        rw [Reports.bodies_heard, if_pos rfl, body?, client, Option.bind_some]
        cases c.connection.body? <;> simp [firstAnswer?]
      rw [heard]
      exact Connection.agrees_of_stepReading? tidy hread agrees
    · rw [Reports.bodies_heard, if_neg (Ne.symm other)]
  · obtain ⟨_, -, same⟩ := List.mem_map.mp mem
    cases same

/-- Something happens to the session. -/
theorem happens (reported : s.Reported reports) (e : Event) :
    (s.happen e).Reported (reports ++ []) := by
  have silent (n : Nat) : Reports.call? n [] = none ∧ ∀ r, Report.begun n r ∉ ([] : Reports) :=
    ⟨rfl, fun _ ↦ List.not_mem_nil⟩
  obtain ⟨htasks, hmanager | ⟨i, c, event, client, hmanager⟩⟩ := s.exists_apply e
  · refine reported.still htasks (hmanager ▸ reported.regular) ?_ silent
    have moves : s.manager.Moves .reading (fun _ ↦ True) s.manager := .refl
    rw [hmanager]
    exact .of_moves reported.regular moves fun _ ↦ rfl
  · have table := event.table_apply c
    refine reported.still htasks ?_ ?_ silent
    · rw [hmanager]
      refine reported.regular.setClient client ?_ (event.limit_apply c)
      rw [table]
      exact (reported.regular i c client).1
    · rw [hmanager]
      refine .of_setClient client (fun id ticket answer? agrees ↦ ?_) fun _ _ ↦ rfl
      rw [table]
      exact (Option.or_none (o := answer?)).symm ▸ agrees

/-- Whatever happens next. -/
theorem tells (reported : s.Reported reports) (next : s.Tells shown t) :
    t.Reported (reports ++ shown) := by
  cases next with
  | start refusal n r fresh admitted => exact reported.starts refusal fresh
  | advance refusal n step => exact reported.advances step
  | read i step => exact reported.reads step
  | event e => exact reported.happens e

end Reported

/-- What every run of a new manager shows. -/
theorem Telling.reported (telling : s₀.Telling reports s) (new : s₀.IsNew) :
    s.Reported reports := by
  induction telling with
  | begins =>
    have idle (n : Nat) : s₀.tasks.state? n = none := by
      simp only [Tasks.state?, new.running, List.find?_nil, Option.map_none]
    refine ⟨fun n going ↦ absurd (idle n) going, fun i c client ↦ ?_, fun n task going ↦ ?_,
      fun _ _ ↦ ⟨rfl, fun _ ↦ List.not_mem_nil⟩, fun n task going ↦ ?_,
      fun _ _ _ _ begun ↦ absurd begun List.not_mem_nil⟩
    · simp [Manager.client?, new.clients] at client
    · rw [idle] at going
      cases going
    · rw [idle] at going
      cases going
  | tells telling next ih => exact ih.tells next

/-- A body that is no response ends no operation, and it leaves the calls of its client alone or
makes them fail for want of a connection. -/
private theorem unanswered_of_advanceReading? {i : Nat} (step : s.advanceReading? i = some t)
    (unanswered : (s.body? i).bind response? = none) :
    t.tasks = s.tasks ∧ ∀ j c, s.manager.client? j = some c →
      ∃ d, t.manager.client? j = some d ∧ (d.connection.table = c.connection.table ∨
        ∃ reason, d.connection.table = c.connection.table.failAll reason) := by
  obtain ⟨c, d, event, client, hstep, hmanager, htasks⟩ := exists_stepReading? step
  obtain ⟨-, notice, hread⟩ := Client.exists_stepReading? hstep
  refine ⟨htasks, fun j e found ↦ ?_⟩
  rw [hmanager, Manager.client?_setClient_of_some client]
  rw [body?, client, Option.bind_some] at unanswered
  split
  · next same =>
    subst same
    rw [client] at found
    cases found
    obtain ⟨id, outcome, acted, -⟩ | ⟨-, table⟩ := Connection.table_of_stepReading? hread
    · rw [unanswered] at acted
      cases acted
    · exact ⟨d, rfl, table⟩
  · exact ⟨e, found, .inl rfl⟩

/-- An operation that fails reaches no server, unless it is a completion: this also fails by an
error of the server, when the time that requests are given is over, or because the first response to
its call is no answer to a request for completions. What a server sends that is no response ends no
operation, and it leaves the calls of its client alone or makes them fail for want of a
connection. -/
theorem failures_by_kind (telling : s₀.Telling reports s) (new : s₀.IsNew) :
    (∀ n r f, .begun n r ∈ reports → s.failure? n = some f →
      (r.kind = .document ∨ r.kind = .client → f.isUnreached = true) ∧
      (r.kind = .completion → f.isUnreached = true ∨
        (∃ code message, f = .rpc code message ∧ reports.answer? n = some (.error f)) ∨
        (∃ time, f = .timeout time ∧ s.manager.limit = some time) ∨
        ∃ v mismatch, f = .protocol s!"malformed completion result: {mismatch.message}" ∧
          reports.answer? n = some (.ok v) ∧ CompletionAnswer.ofJson v = .error mismatch) ∧
      r.kind ≠ .shutdown ∧ (∀ reason, f ≠ .io reason) ∧
      ∀ method, f ≠ .unsupportedMethod method) ∧
    ∀ i t, s.advanceReading? i = some t → (s.body? i).bind response? = none →
      t.tasks = s.tasks ∧ ∀ j c, s.manager.client? j = some c →
        ∃ d, t.manager.client? j = some d ∧ (d.connection.table = c.connection.table ∨
          ∃ reason, d.connection.table = c.connection.table.failAll reason) := by
  have reported := telling.reported new
  refine ⟨fun n r f begun failed ↦ ?_, fun i t step ↦ unanswered_of_advanceReading? step⟩
  have fails := reported.failed n f failed r begun
  generalize r.kind = kind at fails
  cases fails with
  | unreached fallible unreached =>
    refine ⟨fun _ ↦ unreached, fun _ ↦ .inl unreached, fallible, ?_, ?_⟩
    · rintro reason rfl
      cases unreached
    · rintro method rfl
      cases unreached
  | completion fails =>
    refine ⟨fun same ↦ by simp at same, fun _ ↦ ?_, OperationKind.noConfusion, ?_, ?_⟩
    · cases fails with
      | transport reason => exact .inl rfl
      | rpc answered => exact .inr (.inl ⟨_, _, rfl, answered⟩)
      | timeout limited => exact .inr (.inr (.inl ⟨_, rfl, limited⟩))
      | malformed answered undecoded =>
        exact .inr (.inr (.inr ⟨_, _, rfl, answered, undecoded⟩))
    · rintro reason rfl
      cases fails
    · rintro method rfl
      cases fails

/-- What a move shows. -/
def moveTells (s : ManagerSession) (move : Move) (t : ManagerSession) : Reports :=
  match move with
  | .client n language => .begun n (.client language) :: s.asks t n
  | .stop n i => .begun n (.stop i) :: s.asks t n
  | .advance n => s.asks t n
  | .read i => (s.body? i).toList.map (.heard i)
  | .event _ => []

/-- A move shows that. -/
theorem tells_of_move? {move : Move} {history : ManagerHistory}
    (h : s.move? move = some (history, t)) : s.Tells (s.moveTells move t) t := by
  cases move with
  | client n language =>
    simp only [move?, Option.ite_none_right_eq_some] at h
    obtain ⟨fresh, h⟩ := h
    cases h
    exact .start unrefused n (.client language) fresh trivial
  | stop n i =>
    simp only [move?, Option.ite_none_right_eq_some] at h
    obtain ⟨⟨fresh, given⟩, h⟩ := h
    cases h
    exact .start unrefused n (.stop i) fresh given
  | advance n =>
    simp only [move?, Option.map_eq_some_iff] at h
    obtain ⟨_, step, h⟩ := h
    cases h
    exact .advance unrefused n step
  | read i =>
    simp only [move?, Option.map_eq_some_iff] at h
    obtain ⟨_, step, h⟩ := h
    cases h
    exact .read i step
  | event e =>
    cases h
    exact .event e

/-- Make moves one after the other, and note what they show; a move that cannot be made is left
out. -/
def recount : List Move → Reports × ManagerSession → Reports × ManagerSession
  | [], state => state
  | move :: moves, (reports, s) =>
    match s.move? move with
    | some (_, t) => recount moves (reports ++ s.moveTells move t, t)
    | none => recount moves (reports, s)

/-- What is recounted is a run. -/
theorem Telling.recount (telling : s₀.Telling reports s) (moves : List Move) :
    s₀.Telling (recount moves (reports, s)).1 (recount moves (reports, s)).2 := by
  induction moves generalizing reports s with
  | nil => exact telling
  | cons move moves ih =>
    simp only [ManagerSession.recount]
    split
    · next history t hmove => exact ih (telling.tells (tells_of_move? hmove))
    · exact ih telling

/-- A completion is asked for, and the server answers its call with a number. -/
def misled : Reports × ManagerSession :=
  let request := ManagerRequest.completion "python" "/a.py" ⟨0, 0⟩
  recount (handshake 0 0 ++ List.replicate 4 (.advance 0) ++
      [.event (.server 0 (.arrive (Frame.encode "\x7b\"id\":2,\"result\":5\x7d")))] ++
      List.replicate 8 (.read 0) ++ [.advance 0])
    ([.begun 0 request], hub.start unrefused 0 request)

/-- The completion has failed because of a message. -/
private theorem misled_facts :
    .begun 0 (.completion "python" "/a.py" ⟨0, 0⟩) ∈ misled.1 ∧
      misled.2.failure? 0 = some (.protocol ("malformed completion result: " ++
        "data did not match any variant of untagged enum CompletionResponse")) := by
  decide +kernel

/-- The completion fails because the response to its call is no answer to it. -/
theorem malformed_answer_misled :
    hub.Telling misled.1 misled.2 ∧ hub.IsNew ∧
    ∃ v mismatch, misled.1.answer? 0 = some (.ok v) ∧ CompletionAnswer.ofJson v = .error mismatch ∧
      misled.2.failure? 0 =
        some (.protocol s!"malformed completion result: {mismatch.message}") := by
  let request := ManagerRequest.completion "python" "/a.py" ⟨0, 0⟩
  have started : hub.Telling [.begun 0 request] (hub.start unrefused 0 request) :=
    Telling.begins.tells (.start unrefused 0 request List.not_mem_nil trivial)
  have telling : hub.Telling misled.1 misled.2 := started.recount _
  refine ⟨telling, isNew_hub, ?_⟩
  obtain ⟨begun, failed⟩ := misled_facts
  obtain ⟨-, causes, -⟩ := (failures_by_kind telling isNew_hub).1 0 request _ begun failed
  obtain unreached | ⟨_, _, same, -⟩ | ⟨_, same, -⟩ | ⟨v, mismatch, same, answered, undecoded⟩ :=
    causes rfl
  · cases unreached
  · cases same
  · cases same
  · exact ⟨v, mismatch, answered, undecoded, failed.trans (congrArg some same)⟩

end ManagerSession

end LanguageHub
