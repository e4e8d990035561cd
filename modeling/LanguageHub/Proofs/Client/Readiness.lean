import LanguageHub.Proofs.Client.Lifecycle

/-!
# Readiness

A client that is connected and not ready will never be ready again: no connection is opened a
second time, and no client serves again after a shutdown has begun. As long as it is not ready, an
operation with documents fails at once and leaves everything else as it was.
-/

namespace LanguageHub

namespace Client

variable {c : Client}

theorem isReady_iff : c.isReady = true ↔ c.phase = .ready ∧ c.connection.isClosed = false := by
  unfold isReady state
  cases c.phase <;> cases c.connection.isClosed <;> simp

/-- A client that is not ready refuses operations with a failure of the transport. -/
theorem exists_refusal (unready : c.isReady = false) :
    ∃ reason, c.refusal? = some (.transport reason) := by
  simp only [refusal?, unready, Bool.false_eq_true, if_false]
  exact ⟨_, rfl⟩

end Client

/-- The answer of an operation with documents that is refused for the given reason. -/
def ClientRequest.refused (reason : String) : ClientRequest → ClientAnswer
  | .completion _ _ => .items (.error (.transport reason))
  | _ => .done (.error (.transport reason))

namespace ClientSession

variable {s t : ClientSession} {n : Nat}

/-- Only a client that was ready is ready. -/
theorem Step.isReady_of_isReady (life : Life s) (connected : s.isConnected = true)
    (next : Step s t) (ready : t.client.isReady = true) : s.client.isReady = true := by
  obtain ⟨phase, opened⟩ := Client.isReady_iff.mp ready
  have stillOpen : s.client.connection.isClosed = false := by
    cases closed : s.client.connection.isClosed with
    | false => rfl
    | true =>
      have stays := next.onward.isClosed closed
      rw [opened] at stays
      cases stays
  obtain serving | ⟨n, leaving⟩ | left := life.of_connected connected
  · exact Client.isReady_iff.mpr ⟨serving.phase, stillOpen⟩
  · obtain leaving | left := leaving.step next
    · rw [leaving.phase] at phase
      cases phase
    · rw [left.gone.phase] at phase
      cases phase
  · rw [(left.step next).gone.phase] at phase
    cases phase

/-- A client stays connected. -/
theorem Step.isConnected (connected : s.isConnected = true) (next : Step s t) :
    t.isConnected = true := by
  obtain ⟨n, r, -, -, rfl⟩ | ⟨n, step⟩ | passes := next.kind
  · exact isConnected_start connected n r
  · exact isConnected_advance connected step
  · exact passes.isConnected connected

/-- A client stays connected and alive. -/
theorem Reachable.connected (reachable : Reachable s t) (life : Life s)
    (connected : s.isConnected = true) : Life t ∧ t.isConnected = true := by
  induction reachable with
  | refl => exact ⟨life, connected⟩
  | step _ next ih => exact ⟨ih.1.step next, next.isConnected ih.2⟩

/-- A client that is not ready refuses an operation with documents, and nothing else happens. -/
theorem start_refused (unready : s.client.isReady = false) (n : Nat) {r : ClientRequest}
    (used : r.Serves) :
    ∃ reason, s.start n r = { s with tasks := s.tasks.finish n (r.refused reason) } := by
  obtain ⟨reason, refusal⟩ := Client.exists_refusal unready
  refine ⟨reason, ?_⟩
  cases r with
  | connect | shutdown => exact used.elim
  | document q =>
    simp only [start, ClientTask.start, Client.startDocument, refusal]
    rfl
  | completion uri position =>
    simp only [start, ClientTask.start, Client.startCompletion, refusal]
    rfl

variable {language : String} {limit : Option Duration} {capacity : Nat} {installed : Bool}
  {child : Option Child}

/-- A client that is connected and not ready is never ready again, and every operation with
documents that is started then fails with a failure of the transport and leaves the client and all
other operations as they were. -/
theorem readiness_never_returns
    (reachable : Reachable (hosted language limit capacity installed child) s)
    (connected : s.isConnected = true) (unready : s.client.isReady = false)
    (later : Reachable s t) :
    t.client.isReady = false ∧
    ∀ n r, n ∉ t.numbers → r.Serves → ∃ reason,
      t.start n r = { t with tasks := t.tasks.finish n (r.refused reason) } ∧
      (t.start n r).client = t.client ∧
      (t.start n r).tasks.answer? n = some (r.refused reason) := by
  have life := reachable.life
  have unready : t.client.isReady = false := by
    induction later with
    | refl => exact unready
    | @step u v later next ih =>
      obtain ⟨life, connected⟩ := later.connected life connected
      cases ready : v.client.isReady with
      | false => rfl
      | true =>
        have before := next.isReady_of_isReady life connected ready
        rw [ih] at before
        cases before
  refine ⟨unready, fun n r fresh used ↦ ?_⟩
  obtain ⟨reason, start⟩ := start_refused unready n used
  refine ⟨reason, start, by rw [start], ?_⟩
  rw [start, Tasks.answer?_finish, answer?_of_fresh fresh, if_pos rfl, Option.none_or]

/-- A client whose server has closed its stream. -/
def deserted : ClientSession :=
  settle advanceAny? 5 ((greeted 4000 none).happen (.endInflow .ended))

/-- A client whose server has closed its stream was ready and is not, and a document cannot be
opened any more. -/
theorem refused_deserted :
    Reachable (hosted "python" none 4000 true none) deserted ∧
    (greeted 4000 none).client.isReady = true ∧ deserted.isConnected = true ∧
    deserted.client.isReady = false ∧
    ∃ reason, (deserted.start 1 (.document (.opened "file:///w/a.py" "x"))).tasks.answer? 1 =
      some (.done (.error (.transport reason))) := by
  have facts : (greeted 4000 none).client.isReady = true ∧ deserted.isConnected = true ∧
      deserted.client.isReady = false ∧ 1 ∉ deserted.numbers := by
    decide +kernel
  obtain ⟨ready, connected, unready, fresh⟩ := facts
  obtain ⟨_, run⟩ := run_greeted 4000 none
  obtain ⟨_, run⟩ := (run.event (.endInflow .ended)).settle 5
  have reachable : Reachable _ deserted := run.reachable
  obtain ⟨-, refused⟩ := readiness_never_returns reachable connected unready .refl
  obtain ⟨reason, -, -, answer⟩ :=
    refused 1 (.document (.opened "file:///w/a.py" "x")) fresh trivial
  exact ⟨reachable, ready, connected, unready, reason, answer⟩

end ClientSession

end LanguageHub
