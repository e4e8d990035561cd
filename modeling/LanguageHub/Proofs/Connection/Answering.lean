import LanguageHub.Proofs.Connection.Bodies
import LanguageHub.Proofs.Connection.Deadlines
import LanguageHub.Proofs.Message.Envelope

/-!
# Which responses end their calls

A response under the id of a waiting call ends this call exactly if all its members are understood:
the values of its id, params and result can be built, and its error is null or an error with an
integer as its code. One member that is not understood makes the whole response go by unnoticed,
and the call goes on waiting.
-/

namespace LanguageHub

open Json

namespace ConnectionSession

variable {s : ConnectionSession} {h : History} {capacity : Nat} {handlerFails : Bool}
  {body : String}

/-- A step on a response delivers it to the table of waiting calls. -/
theorem advanceReading?_of_response (taken : s.connection.body? = some body) {id : Int}
    {outcome : Except RpcError Json}
    (response : ServerMessage.decode body = .ok (.response id outcome)) :
    ∃ t, s.advanceReading? = some t ∧ t.tasks = s.tasks ∧ t.handled = s.handled ∧
      t.connection.table =
        (s.connection.table.resolve id (outcome.mapError RpcError.toFailure)).1 := by
  obtain ⟨call, u, -, -, -, hreceive, -⟩ := Connection.stepReading?_of_body? taken
  simp only [Connection.receive, response] at hreceive
  exact ⟨_, congrArg (Option.map _) hreceive, rfl, List.append_nil _, rfl⟩

/-- A step on a body that does not decode changes the stream from the server alone. -/
theorem advanceReading?_of_error (taken : s.connection.body? = some body) {f : Failure}
    (unknown : ServerMessage.decode body = .error f) :
    ∃ t, s.advanceReading? = some t ∧ t.tasks = s.tasks ∧ t.handled = s.handled ∧
      t.connection.table = s.connection.table := by
  obtain ⟨call, u, -, -, -, hreceive, -⟩ := Connection.stepReading?_of_body? taken
  simp only [Connection.receive, unknown] at hreceive
  exact ⟨_, congrArg (Option.map _) hreceive, rfl, List.append_nil _, rfl⟩

/-- A call whose request is written returns its outcome with its next step. -/
theorem Goes.returns {n : Nat} {k : Call} (goes : s.Goes n k) {due : Option Nat}
    (waiting : k.phase = .waiting due) {outcome : Outcome}
    (fate : s.connection.table.fate? k.ticket = some (.decided outcome)) :
    ∃ t, s.advance? n = some t ∧ t.Returned n := by
  have hstep : k.step? (.operation n) s.now s.connection =
      some (.finished outcome, s.connection) := by
    simp only [Call.step?, waiting, fate]
  have step := advance?_call goes.going hstep
  refine ⟨_, step, ⟨?_, outcome, ?_⟩⟩
  · simp [callProgress, record, Tasks.state?_finish]
  · simp [callProgress, record, Tasks.answer?_finish, goes.unanswered]

/-- When the task that reads acts on an object with distinct names, the id of a waiting call and no
method, the call has an outcome exactly if every member is understood. The call then returns with
its next step once its request is written; otherwise nothing but the stream is changed. -/
theorem response_ends_call_iff (run : Run (overPipes capacity handlerFails) h s)
    (taken : s.connection.body? = some body) {members : List MemberText}
    (object : memberTexts body = .ok members) (distinct : (members.map (·.1)).Nodup)
    {n : Nat} {k : Call} (going : s.tasks.state? n = some (.call k))
    (pending : (k.id, k.ticket) ∈ s.connection.table.pending)
    {text rest : List Char} {v : Json} (id : ("id", text) ∈ members)
    (value : readValue (maxDepth - 1) text = .ok (v, rest)) (same : v.int64? = some k.id)
    (noMethod : "method" ∉ members.map (·.1)) :
    ∃ t, s.advanceReading? = some t ∧ t.tasks = s.tasks ∧ t.handled = s.handled ∧
      ((∃ outcome, t.connection.table.fate? k.ticket = some (.decided outcome)) ↔
        ∀ m ∈ members, Envelope.Understood m) ∧
      ((∀ m ∈ members, Envelope.Understood m) → ∀ due, k.phase = .waiting due →
        ∃ u, t.advance? n = some u ∧ u.Returned n) ∧
      (¬ (∀ m ∈ members, Envelope.Understood m) → t.connection.table = s.connection.table) := by
  have sound : s.connection.table.Sound := run.kept.sound
  have waits : s.connection.table.fate? k.ticket = some .waiting := sound.waiting _ pending
  have unanswered : s.tasks.answer? n = none := run.apart n (by simp [going])
  obtain ⟨ofUnderstood, ofOther⟩ :=
    ServerMessage.decode_of_object object distinct id value same noMethod
  by_cases understood : ∀ m ∈ members, Envelope.Understood m
  · obtain ⟨outcome, hdecode⟩ := ofUnderstood understood
    obtain ⟨t, hstep, htasks, hhandled, htable⟩ := advanceReading?_of_response taken hdecode
    have fate : t.connection.table.fate? k.ticket =
        some (.decided (outcome.mapError RpcError.toFailure)) := by
      rw [htable]
      exact sound.fate?_take pending _
    have goes : t.Goes n k := ⟨htasks ▸ going, htasks ▸ unanswered⟩
    exact ⟨t, hstep, htasks, hhandled, ⟨fun _ ↦ understood, fun _ ↦ ⟨_, fate⟩⟩,
      fun _ due waiting ↦ goes.returns waiting fate, fun other ↦ absurd understood other⟩
  · obtain ⟨f, hdecode⟩ := ofOther understood
    obtain ⟨t, hstep, htasks, hhandled, htable⟩ := advanceReading?_of_error taken hdecode
    refine ⟨t, hstep, htasks, hhandled, ⟨fun ⟨outcome, decided⟩ ↦ ?_, fun h ↦ absurd h understood⟩,
      fun h ↦ absurd h understood, fun _ ↦ htable⟩
    rw [htable, waits] at decided
    cases decided

/-! ### A result and an error that is not understood -/

/-- A call waits for its response, and the task that reads is about to act on a body. -/
def beforeResponse (body : String) : ConnectionSession :=
  let s := settle advanceAny? 20 ((overPipes 1000 false).start 0
    (.call (.completion "file:///a.py" ⟨0, 0⟩) none))
  settle advanceAny? 5 (s.happen (.arrive (Frame.encode body)))

private theorem run_beforeResponse (body : String) :
    ∃ h, Run (overPipes 1000 false) h (beforeResponse body) := by
  have run : Run (overPipes 1000 false) [] (overPipes 1000 false) := .refl
  obtain ⟨_, run⟩ :=
    (run.start 0 (.call (.completion "file:///a.py" ⟨0, 0⟩) none) (by decide)).settle 20
  exact (run.event (.arrive (Frame.encode body))).settle 5

/-- A response with a null result. -/
def nullResponse : String := "\x7b\"id\":1,\"result\":null\x7d"

/-- A response whose result is the escape of one half of a surrogate pair. -/
def oddResponse : String := "\x7b\"id\":1,\"result\":\"\\ud800\"\x7d"

/-- The id in front of any other member is read. -/
private theorem readValue_one (cs : List Char) (number : scanNumber false ('1' :: cs) =
    .ok (.integer 1, cs)) : readValue (maxDepth - 1) ('1' :: cs) = .ok (.number (.integer 1), cs) :=
  (readValue_of_isDigit (by decide) _).trans (congrArg (Except.map _) number)

/-- A response with a null result ends the call. -/
theorem decided_nullResponse :
    ∃ t, (beforeResponse nullResponse).advanceReading? = some t ∧
      ∃ outcome, t.connection.table.fate? 0 = some (.decided outcome) := by
  obtain ⟨h, run⟩ := run_beforeResponse nullResponse
  obtain ⟨taken, going, pending⟩ :
      (beforeResponse nullResponse).connection.body? = some nullResponse ∧
      (beforeResponse nullResponse).tasks.state? 0 =
        some (.call ⟨1, 0, none, .waiting none⟩) ∧
      (1, 0) ∈ (beforeResponse nullResponse).connection.table.pending := by decide +kernel
  have object : memberTexts nullResponse =
      .ok [("id", '1' :: ",\"result\":null\x7d".toList), ("result", "null\x7d".toList)] := by
    unfold nullResponse
    rfl
  have value := readValue_one (",\"result\":null\x7d".toList) (by rfl)
  have integer : Json.int64? (.number (.integer 1)) = some 1 := by decide
  obtain ⟨t, hstep, -, -, hiff, -⟩ := response_ends_call_iff run taken object (by simp) going
    pending List.mem_cons_self value integer (by simp)
  refine ⟨t, hstep, hiff.mpr fun m hm ↦ ?_⟩
  simp only [List.mem_cons, List.not_mem_nil, or_false] at hm
  rcases hm with rfl | rfl
  · exact ⟨_, _, readNullable_of_readValue value (by simp)⟩
  · exact ⟨none, "\x7d".toList, rfl⟩

/-- There is a run in which the task that reads acts on a response to a waiting call, and when
everything has run the call still waits: its result is well formed but cannot be built. -/
theorem exists_unnoticed_response :
    ∃ h s body members n k text rest v, Run (overPipes 1000 false) h s ∧
      s.connection.body? = some body ∧ memberTexts body = .ok members ∧
      (members.map (·.1)).Nodup ∧ s.tasks.state? n = some (.call k) ∧
      (k.id, k.ticket) ∈ s.connection.table.pending ∧ ("id", text) ∈ members ∧
      readValue (maxDepth - 1) text = .ok (v, rest) ∧ v.int64? = some k.id ∧
      "method" ∉ members.map (·.1) ∧ ∃ t, s.advanceReading? = some t ∧
      (settle advanceAny? 20 t).Quiescent ∧
      (settle advanceAny? 20 t).tasks.state? n = some (.call k) := by
  obtain ⟨h, run⟩ := run_beforeResponse oddResponse
  obtain ⟨taken, going, pending⟩ :
      (beforeResponse oddResponse).connection.body? = some oddResponse ∧
      (beforeResponse oddResponse).tasks.state? 0 =
        some (.call ⟨1, 0, none, .waiting none⟩) ∧
      (1, 0) ∈ (beforeResponse oddResponse).connection.table.pending := by decide +kernel
  have object : memberTexts oddResponse =
      .ok [("id", '1' :: ",\"result\":\"\\ud800\"\x7d".toList),
        ("result", "\"\\ud800\"\x7d".toList)] := by
    unfold oddResponse
    rfl
  have value := readValue_one (",\"result\":\"\\ud800\"\x7d".toList) (by rfl)
  have integer : Json.int64? (.number (.integer 1)) = some 1 := by decide
  have later : (beforeResponse oddResponse).advanceReading?.map (fun t ↦
      ((settle advanceAny? 20 t).advanceAny?.isNone, (settle advanceAny? 20 t).tasks.state? 0)) =
      some (true, some (.call ⟨1, 0, none, .waiting none⟩)) := by decide +kernel
  obtain ⟨t, hstep, hlater⟩ := Option.map_eq_some_iff.mp later
  obtain ⟨hquiescent, hwaits⟩ := Prod.mk.inj hlater
  exact ⟨h, _, oddResponse, _, 0, _, _, _, _, run, taken, object, by simp, going, pending,
    List.mem_cons_self, value, integer, by simp, t, hstep,
    Option.isNone_iff_eq_none.mp hquiescent, hwaits⟩

end ConnectionSession

end LanguageHub
