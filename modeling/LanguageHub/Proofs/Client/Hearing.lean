import LanguageHub.Proofs.Client.Publications

/-!
# What a client has heard of its server

On every run of a client, the diagnostics that it keeps are told by the bodies that the task that
reads has acted on: each publication among them has replaced the entry of its document, and nothing
else has changed an entry. The callback was called once for each publication that came while it was
installed, when the new entry was already there.
-/

namespace LanguageHub.ClientSession

open ServerMessage

variable {s t : ClientSession} {n : Nat}

/-- What can come of a session, with the bytes that the server has sent and the bodies that the
task that reads has acted on. The server sends nothing behind the end of its stream. -/
inductive Hearing (s₀ : ClientSession) : Bytes → List HeardBody → ClientSession → Prop where
  | opened : Hearing s₀ [] [] s₀
  | start {sent : Bytes} {heard : List HeardBody} {s : ClientSession}
      (hearing : Hearing s₀ sent heard s) (n : Nat) (r : ClientRequest) (fresh : n ∉ s.numbers)
      (admitted : s.Admits r) : Hearing s₀ sent heard (s.start n r)
  | advance {sent : Bytes} {heard : List HeardBody} {s t : ClientSession}
      (hearing : Hearing s₀ sent heard s) (n : Nat) (step : s.advance? n = some t) :
      Hearing s₀ sent heard t
  | read {sent : Bytes} {heard : List HeardBody} {s t : ClientSession}
      (hearing : Hearing s₀ sent heard s) (step : s.advanceReading? = some t) :
      Hearing s₀ sent
        (heard ++ (s.client.connection.body?.map fun b ↦ ⟨b, s.hasCallback⟩).toList) t
  | arrive {sent : Bytes} {heard : List HeardBody} {s : ClientSession}
      (hearing : Hearing s₀ sent heard s) (piece : Bytes)
      (goesOn : s.client.connection.transport.ending = .undecided) :
      Hearing s₀ (sent ++ piece) heard (s.happen (.arrive piece))
  | endInflow {sent : Bytes} {heard : List HeardBody} {s : ClientSession}
      (hearing : Hearing s₀ sent heard s) (ending : Ending) (decided : ending ≠ .undecided)
      (goesOn : s.client.connection.transport.ending = .undecided) :
      Hearing s₀ sent heard (s.happen (.endInflow ending))
  | event {sent : Bytes} {heard : List HeardBody} {s : ClientSession}
      (hearing : Hearing s₀ sent heard s) (e : Event) (noPiece : ∀ piece, e ≠ .arrive piece)
      (noEnding : ∀ ending, e ≠ .endInflow ending) : Hearing s₀ sent heard (s.happen e)

variable {language : String} {limit : Option Duration} {capacity : Nat} {installed : Bool}
  {sent : Bytes} {heard : List HeardBody}

/-- The start of an operation changes the client and the tasks alone. -/
private theorem start_eq (s : ClientSession) (n : Nat) (r : ClientRequest) :
    (s.start n r).client = (ClientTask.start n s.now r s.client).2 ∧
      (s.start n r).callbacks = s.callbacks := by
  unfold start
  split <;> next hstart => rw [hstart]; exact ⟨rfl, rfl⟩

/-- An event beside the stream of the server leaves the task that reads alone. -/
private theorem spares_happen {e : Event} (noPiece : ∀ piece, e ≠ .arrive piece)
    (noEnding : ∀ ending, e ≠ .endInflow ending) : Client.Spares s.client (s.happen e).client := by
  cases e with
  | arrive piece => exact absurd rfl (noPiece piece)
  | endInflow ending => exact absurd rfl (noEnding ending)
  | deliver | breakSink | tick | childExits | setCallback =>
    exact ⟨.of_eq rfl rfl rfl rfl rfl rfl, rfl⟩

/-- What is kept and what the callback was told follow from the bodies that were heard. -/
structure Keeps (heard : List HeardBody) (s : ClientSession) : Prop where
  works : s.client.connection.handlerFails = false
  diagnostics : s.client.diagnostics = .ofBodies (heard.map (·.body))
  callbacks : s.callbacks = heard.filterMap (·.call?)

/-- Whatever leaves the task that reads alone keeps this. -/
private theorem Keeps.spared (keeps : s.Keeps heard) (spares : Client.Spares s.client t.client)
    (callbacks : t.callbacks = s.callbacks) : t.Keeps heard where
  works := spares.connection.handler.trans keeps.works
  diagnostics := spares.diagnostics.trans keeps.diagnostics
  callbacks := callbacks.trans keeps.callbacks

/-- A step of the task that reads keeps this, with the body that it acts on. -/
private theorem Keeps.read (keeps : s.Keeps heard) (reads : s.ReadsTo t) :
    t.Keeps
      (heard ++ (s.client.connection.body?.map fun b ↦ ⟨b, s.hasCallback⟩).toList) := by
  obtain ⟨⟨notice, hstep⟩, hdiagnostics, hcallbacks, -⟩ := reads
  refine ⟨?_, ?_, ?_⟩
  · rw [(Connection.keeps_of_stepReading? hstep).1]
    exact keeps.works
  · rw [hdiagnostics, keeps.diagnostics]
    cases s.client.connection.body? with
    | none => simp
    | some body =>
      rw [Option.map_some, Option.toList_some, List.map_append, List.map_singleton,
        DiagnosticSet.ofBodies_concat]
      rfl
  · rw [hcallbacks, keeps.callbacks, List.filterMap_append]
    apply congrArg (heard.filterMap (·.call?) ++ ·)
    cases s.client.connection.body? with
    | none => split <;> rfl
    | some body =>
      cases s.hasCallback with
      | false => rfl
      | true =>
        cases hbody : publication? body with
        | none => simp [HeardBody.call?, hbody]
        | some p => simp [HeardBody.call?, hbody]

/-- On every run, what is kept and what the callback was told follow from the bodies that were
heard. -/
theorem Hearing.keeps
    (hearing : Hearing (overPipes language limit capacity installed) sent heard s) :
    s.Keeps heard := by
  induction hearing with
  | opened => exact ⟨rfl, rfl, rfl⟩
  | @start _ _ s _ n r fresh admitted ih =>
    obtain ⟨hclient, hcallbacks⟩ := start_eq s n r
    refine ih.spared ?_ hcallbacks
    rw [hclient]
    exact (ClientTask.moves_start n s.now r s.client).spares
  | advance _ n step ih =>
    obtain ⟨task, p, c, -, hstep, rfl, -, hcallbacks⟩ := exists_of_advance? step
    exact ih.spared (ClientTask.keeps_of_step? hstep).spares hcallbacks
  | read _ step ih => exact ih.read (readsTo_of_advanceReading? ih.works step)
  | arrive _ piece goesOn ih => exact ⟨ih.works, ih.diagnostics, ih.callbacks⟩
  | endInflow _ ending decided goesOn ih => exact ⟨ih.works, ih.diagnostics, ih.callbacks⟩
  | event _ e noPiece noEnding ih =>
    refine ih.spared (spares_happen noPiece noEnding) ?_
    cases e <;> rfl

/-- On every run, if the server sends the frames of some bodies, then those that were heard are
the first of them, and the others are left to be read. -/
theorem Hearing.follows
    (hearing : Hearing (overPipes language limit capacity installed) sent heard s)
    {bodies : List String} (sized : ∀ b ∈ bodies, Frame.Sized b) {later : Bytes}
    (possible : s.client.connection.transport.ending = .undecided ∨ later = [])
    (frames : sent ++ later = bodies.flatMap Frame.encode) :
    (∀ x ∈ heard, Frame.Fits x.body) ∧
      ∃ rest, bodies = heard.map (·.body) ++ rest ∧ s.client.connection.Follows rest later := by
  induction hearing generalizing later with
  | opened =>
    refine ⟨by simp, bodies, rfl, ?_⟩
    exact Connection.follows_ofTransport rfl (by simp [Source.Solid, Inflow.Solid]) false frames
  | @start _ _ s _ n r fresh admitted ih =>
    obtain ⟨hclient, -⟩ := start_eq s n r
    have spares := (ClientTask.moves_start n s.now r s.client).connection.spares
    rw [hclient] at possible ⊢
    have ending := congrArg (·.inflow.ending) spares.source
    obtain ⟨fits, rest, hrest, follows⟩ := ih (possible.imp_left ending.symm.trans) frames
    exact ⟨fits, rest, hrest, follows.spared spares⟩
  | advance _ n step ih =>
    obtain ⟨task, p, c, -, hstep, rfl, -, -⟩ := exists_of_advance? step
    have spares := (ClientTask.keeps_of_step? hstep).connection.spares
    have ending := congrArg (·.inflow.ending) spares.source
    obtain ⟨fits, rest, hrest, follows⟩ := ih (possible.imp_left ending.symm.trans) frames
    exact ⟨fits, rest, hrest, follows.spared spares⟩
  | @read _ heard s t hearing step ih =>
    have works := hearing.keeps.works
    obtain ⟨notice, hstep⟩ := (readsTo_of_advanceReading? works step).connection
    have ending := (Connection.keeps_of_stepReading? hstep).2.1
    obtain ⟨fits, rest, hrest, follows⟩ := ih (possible.imp_left ending.symm.trans) frames
    have sized' : ∀ b ∈ rest, Frame.Sized b := fun b hb ↦
      sized b (hrest ▸ List.mem_append_right _ hb)
    obtain ⟨e, allowed⟩ := s.client.connection.transport.source.inflow.exists_allows
      (possible.imp_left ending.symm.trans)
    obtain ⟨rest', hrest', fits', follows'⟩ := follows.step sized' allowed works hstep
    refine ⟨?_, rest', ?_, follows'⟩
    · intro x hx
      rcases List.mem_append.mp hx with hx | hx
      · exact fits x hx
      · obtain ⟨b, hb, rfl⟩ := Option.map_eq_some_iff.mp (Option.mem_toList.mp hx)
        exact fits' b hb
    · rw [hrest, hrest', List.map_append, List.append_assoc]
      cases s.client.connection.body? <;> rfl
  | @arrive _ _ s _ piece goesOn ih =>
    rw [List.append_assoc] at frames
    obtain ⟨fits, rest, hrest, follows⟩ := ih (.inl goesOn) frames
    exact ⟨fits, rest, hrest, follows.arrive goesOn⟩
  | endInflow _ ending decided goesOn ih =>
    have nothing : later = [] := possible.resolve_left decided
    subst nothing
    obtain ⟨fits, rest, hrest, follows⟩ := ih (.inl goesOn) frames
    exact ⟨fits, rest, hrest, follows.endInflow goesOn⟩
  | @event _ _ s _ e noPiece noEnding ih =>
    have spares : Connection.Spares s.client.connection (s.happen e).client.connection :=
      (spares_happen noPiece noEnding).connection
    have ending := congrArg (·.inflow.ending) spares.source
    obtain ⟨fits, rest, hrest, follows⟩ := ih (possible.imp_left ending.symm.trans) frames
    exact ⟨fits, rest, hrest, follows.spared spares⟩

/-- A run goes on until nothing can. -/
theorem Hearing.continues {s₀ : ClientSession} (hearing : Hearing s₀ sent heard s) (fuel : Nat) :
    ∃ heard', Hearing s₀ sent heard' (settle advanceAny? fuel s) := by
  induction fuel generalizing heard s with
  | zero => exact ⟨heard, hearing⟩
  | succ fuel ih =>
    simp only [settle]
    cases hstep : s.advanceAny? with
    | none => exact ⟨heard, hearing⟩
    | some t =>
      simp only [advanceAny?] at hstep
      split at hstep
      · next hread =>
        cases hstep
        exact ih (hearing.read hread)
      · obtain ⟨n, _, hadvance⟩ := List.exists_of_findSome?_eq_some hstep
        exact ih (hearing.advance n hadvance)

/-- What a client keeps, and what its callback was told, is a fold over the bodies that the task
that reads has acted on: the readable ones among those that the server has sent, one after
another. -/
theorem publications_fold
    (hearing : Hearing (overPipes language limit capacity installed) sent heard s) :
    (s.client.diagnostics = .ofBodies (heard.map (·.body)) ∧
      s.callbacks = heard.filterMap (·.call?)) ∧
    (∀ t, s.advanceReading? = some t →
      (∀ p, s.client.connection.body?.bind publication? = some p →
        (∀ uri, t.client.diagnostics.store.get? uri =
          if uri = Uri.normalizeUri p.uri then some p.diagnostics
          else s.client.diagnostics.store.get? uri) ∧
        t.callbacks = s.callbacks ++ if s.hasCallback then [p.call] else []) ∧
      (s.client.connection.body?.bind publication? = none →
        t.client.diagnostics = s.client.diagnostics ∧ t.callbacks = s.callbacks)) ∧
    ∀ bodies, (∀ b ∈ bodies, Frame.Sized b) → sent = bodies.flatMap Frame.encode →
      heard.map (·.body) <+: Frame.readable bodies ∧
      (∀ call, s.client.connection.reading = .fetching call →
        s.client.connection.stepReading? = none → heard.map (·.body) = bodies) ∧
      (s.client.connection.Listens → s.client.connection.reading = .ended →
        heard.map (·.body) = Frame.readable bodies) := by
  have keeps := hearing.keeps
  refine ⟨⟨keeps.diagnostics, keeps.callbacks⟩, fun t step ↦ ?_, fun bodies sized frames ↦ ?_⟩
  · obtain ⟨-, hdiagnostics, hcallbacks, -⟩ := readsTo_of_advanceReading? keeps.works step
    constructor
    · intro p hbody
      rw [hbody] at hdiagnostics hcallbacks
      refine ⟨fun uri ↦ ?_, hcallbacks⟩
      rw [hdiagnostics]
      exact DiagnosticSet.get?_keep s.client.diagnostics p uri
    · intro hbody
      rw [hbody] at hdiagnostics hcallbacks
      refine ⟨hdiagnostics, hcallbacks.trans ?_⟩
      split <;> exact List.append_nil _
  · obtain ⟨fits, rest, hrest, follows⟩ :=
      hearing.follows sized (.inr rfl) ((List.append_nil sent).trans frames)
    have fits : ∀ b ∈ heard.map (·.body), Frame.Fits b := by
      intro b hb
      obtain ⟨x, hx, rfl⟩ := List.mem_map.mp hb
      exact fits x hx
    have sized' : ∀ b ∈ rest, Frame.Sized b := fun b hb ↦
      sized b (hrest ▸ List.mem_append_right _ hb)
    rw [hrest, Frame.readable_append fits]
    refine ⟨List.prefix_append _ _, ?_, ?_⟩
    · intro call reading stuck
      rw [follows.awaits.eq_nil sized' reading stuck, List.append_nil]
    · intro listens ended
      obtain ⟨first, others, hfirst, great⟩ := follows.great listens ended
      rw [hfirst, Frame.readable_cons_of_not_fits great, List.append_nil]

/-- A publication, and one of another document with a diagnostic that is none. -/
def twoPublications : List String := [
  "\x7b\"method\":\"textDocument/publishDiagnostics\"," ++
    "\"params\":\x7b\"uri\":\"file:///a\",\"diagnostics\":[]\x7d\x7d",
  "\x7b\"method\":\"textDocument/publishDiagnostics\"," ++
    "\"params\":\x7b\"uri\":\"file:///b\",\"diagnostics\":[\x7b\x7d]\x7d\x7d"]

/-- The server sends two publications to a client with a callback, and everything runs. -/
def heardTwo : ClientSession :=
  settle advanceAny? 60
    ((overPipes "python" none 1000 true).happen (.arrive (twoPublications.flatMap Frame.encode)))

/-- Everything that has arrived was read. -/
private theorem reading_heardTwo :
    heardTwo.client.connection.reading = .fetching (.inHeader "" (.reading (.line []))) ∧
      heardTwo.client.connection.stepReading?.isNone := by
  decide +kernel

/-- Both bodies were heard, and there is one entry, that of the publication that is understood. -/
theorem kept_heardTwo : ∃ heard,
    Hearing (overPipes "python" none 1000 true) (twoPublications.flatMap Frame.encode) heard
      heardTwo ∧ heard.map (·.body) = twoPublications ∧
    heardTwo.client.diagnostics.store.entries = [("file:///a", [])] ∧
    heardTwo.callbacks = heard.filterMap (·.call?) := by
  have begins : Hearing (overPipes "python" none 1000 true) [] [] _ := .opened
  have arrived := begins.arrive (twoPublications.flatMap Frame.encode) rfl
  obtain ⟨heard, hearing⟩ := arrived.continues 60
  have hearing : Hearing (overPipes "python" none 1000 true)
    (twoPublications.flatMap Frame.encode) heard heardTwo := hearing
  have sized : ∀ b ∈ twoPublications, Frame.Sized b := by
    unfold Frame.Sized
    decide +kernel
  obtain ⟨⟨kept, called⟩, -, rest⟩ := publications_fold hearing
  obtain ⟨-, fetched, -⟩ := rest twoPublications sized rfl
  obtain ⟨reading, stuck⟩ := reading_heardTwo
  have all : heard.map (·.body) = twoPublications :=
    fetched _ reading (Option.isNone_iff_eq_none.mp stuck)
  refine ⟨heard, hearing, all, ?_, called⟩
  rw [kept, all]
  decide +kernel

end LanguageHub.ClientSession
