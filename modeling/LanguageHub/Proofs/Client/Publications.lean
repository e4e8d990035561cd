import LanguageHub.Proofs.Client.Operations

/-!
# Publications

What the publications of a server come to, and what a step of the task that reads makes of one: it
replaces the entry of its document and no other, and the callback, if there is one, is called when
the new entry is there.
-/

namespace LanguageHub

/-! ### What bodies publish -/

/-- The publication that a notification is, if it is one. -/
def ServerNotice.publication? : ServerNotice → Option Publication
  | publish p => some p
  | _ => none

/-- The publication that a body is, if it is one. -/
def ServerMessage.publication? (body : String) : Option Publication :=
  (notice? body).bind (·.publication?)

namespace DiagnosticSet

/-- Keep what was published for a document, under the canonical form of its URI. -/
def keep (s : DiagnosticSet) (p : Publication) : DiagnosticSet :=
  s.publish (Uri.normalizeUri p.uri) p.diagnostics

/-- What the publications among some bodies come to. -/
def ofBodies (bodies : List String) : DiagnosticSet :=
  (bodies.filterMap ServerMessage.publication?).foldl keep {}

/-- One more body. -/
theorem ofBodies_concat (bodies : List String) (body : String) :
    ofBodies (bodies ++ [body]) =
      (ServerMessage.publication? body).elim (ofBodies bodies) (ofBodies bodies).keep := by
  rw [ofBodies, List.filterMap_append, List.foldl_append]
  cases hbody : ServerMessage.publication? body with
  | none => simp only [List.filterMap_cons, hbody, List.filterMap_nil, List.foldl_nil]; rfl
  | some p =>
    simp only [List.filterMap_cons, hbody, List.filterMap_nil, List.foldl_cons, List.foldl_nil]
    rfl

/-- A publication replaces the entry of its document and no other. -/
theorem get?_keep (s : DiagnosticSet) (p : Publication) (uri : String) :
    (s.keep p).store.get? uri =
      if uri = Uri.normalizeUri p.uri then some p.diagnostics else s.store.get? uri :=
  Dictionary.get?_insert s.store _ uri p.diagnostics

end DiagnosticSet

/-- A body that the task that reads has acted on, and whether a callback was installed then. -/
structure HeardBody where
  body : String
  called : Bool

/-- The call of the callback that a publication leads to: the entry is already there. -/
def Publication.call (p : Publication) : CallbackCall :=
  ⟨Uri.normalizeUri p.uri, p.diagnostics, p.diagnostics⟩

/-- The call of the callback that a body has led to, if it is a publication and there was a
callback. -/
def HeardBody.call? (x : HeardBody) : Option CallbackCall :=
  if x.called then (ServerMessage.publication? x.body).map (·.call) else none

/-! ### One step -/

namespace ClientSession

open ServerMessage

variable {s t : ClientSession} {n : Nat}

/-- What a step of the task that reads does. -/
structure ReadsTo (s t : ClientSession) : Prop where
  connection : ∃ notice, s.client.connection.stepReading? = some (t.client.connection, notice)
  diagnostics : t.client.diagnostics =
    (s.client.connection.body?.bind publication?).elim s.client.diagnostics
      s.client.diagnostics.keep
  callbacks : t.callbacks = s.callbacks ++
    if s.hasCallback then ((s.client.connection.body?.bind publication?).map (·.call)).toList
    else []
  hasCallback : t.hasCallback = s.hasCallback

/-- A notification that is a publication replaces an entry and calls the callback, and any other
does neither. -/
private theorem observe_handle (s : ClientSession) (notice : ServerNotice) :
    let t := { s with client := (s.client.handle notice).1 }.observe (s.client.handle notice).2
    t.client.connection = s.client.connection ∧
      t.client.diagnostics =
        notice.publication?.elim s.client.diagnostics s.client.diagnostics.keep ∧
      t.callbacks = (s.callbacks ++
        if s.hasCallback then (notice.publication?.map (·.call)).toList else []) ∧
      t.hasCallback = s.hasCallback := by
  cases notice with
  | logMessage | showMessage =>
    refine ⟨rfl, rfl, ?_, rfl⟩
    split <;> exact (List.append_nil _).symm
  | publish p =>
    simp only [Client.handle, observe]
    split
    · -- The entry is looked up after it was replaced.
      have kept : (⟨Uri.normalizeUri p.uri, p.diagnostics,
          (s.client.diagnostics.keep p).get (Uri.normalizeUri p.uri)⟩ : CallbackCall) =
          p.call := by
        rw [DiagnosticSet.get, DiagnosticSet.get?_keep, if_pos rfl]
        rfl
      refine ⟨rfl, rfl, ?_, rfl⟩
      exact congrArg (fun call ↦ s.callbacks ++ [call]) kept
    · exact ⟨rfl, rfl, (List.append_nil _).symm, rfl⟩

/-- A step of the task that reads acts on its body and does nothing else. -/
theorem readsTo_of_advanceReading? (works : s.client.connection.handlerFails = false)
    (step : s.advanceReading? = some t) : s.ReadsTo t := by
  unfold advanceReading? Client.stepReading? at step
  cases hstep : s.client.connection.stepReading? with
  | none =>
    rw [hstep] at step
    cases step
  | some next =>
    obtain ⟨connection, notice⟩ := next
    rw [hstep] at step
    have published : s.client.connection.body?.bind publication? =
        notice.bind (·.publication?) := by
      rw [Connection.notice_of_stepReading? works hstep, Option.bind_assoc]
      rfl
    cases notice with
    | none =>
      cases step
      refine ⟨⟨_, hstep⟩, ?_, ?_, rfl⟩
      · rw [published]
        rfl
      · rw [published]
        split <;> exact (List.append_nil _).symm
    | some notice =>
      obtain ⟨hconnection, hdiagnostics, hcallbacks, hinstalled⟩ :=
        observe_handle { s with client := { s.client with connection } } notice
      cases step
      refine ⟨⟨some notice, ?_⟩, ?_, ?_, hinstalled⟩
      · exact hstep.trans (congrArg (fun c ↦ some (c, some notice)) hconnection.symm)
      · rw [published]
        exact hdiagnostics
      · rw [published]
        exact hcallbacks

/-- What a step of an operation makes of a session. -/
theorem exists_of_advance? (step : s.advance? n = some t) :
    ∃ task p c, s.tasks.state? n = some task ∧ task.step? n s.now s.client = some (p, c) ∧
      t.client = c ∧ t.hasCallback = s.hasCallback ∧ t.callbacks = s.callbacks := by
  simp only [advance?, Option.bind_eq_bind, Option.bind_eq_some_iff, Option.pure_def,
    Prod.exists] at step
  obtain ⟨task, going, p, c, hstep, ht⟩ := step
  refine ⟨task, p, c, going, hstep, ?_⟩
  cases p <;> cases ht <;> exact ⟨rfl, rfl, rfl⟩

end ClientSession

end LanguageHub
