import LanguageHub.Proofs.Connection.Calls
import LanguageHub.Proofs.Connection.Serving

/-!
# Responses and replies

On a run of an open connection the responses among the bodies that were read stand in the history
in their order, and the answers to the requests among them go out in their order. Once everything
has run and the pipe to the server is not full, all of what was begun has gone out.
-/

namespace LanguageHub

/-- The frame of an order of the task that reads. -/
def replyOf? (order : Agent × Bytes) : Option Bytes :=
  if order.1 = .reading then some order.2 else none

/-- The id and the outcome of a response that was decoded. -/
def Occurrence.response? : Occurrence → Option (Int × Outcome)
  | responded id outcome => some (id, outcome)
  | _ => none

namespace History

/-- The responses that the task that reads has decoded, in order. -/
def responses (h : History) : List (Int × Outcome) := h.filterMap Occurrence.response?

/-- The frames on the wire that the task that reads has written. -/
def replies (h : History) : List Shipment := h.wire.filter fun x ↦ x.author = .reading

@[simp]
theorem responses_append (h more : History) :
    responses (h ++ more) = responses h ++ responses more :=
  List.filterMap_append

@[simp]
theorem responses_map_wire (log : List WireEvent) : responses (log.map .wire) = [] := by
  rw [responses, List.filterMap_map]
  exact List.filterMap_eq_nil_iff.mpr fun _ _ ↦ rfl

/-- The frames of the answers on the wire, told from what the writers did. -/
theorem map_frame_replies (h : History) :
    h.replies.map (·.frame) = (h.events.filterMap WireEvent.opened?).filterMap replyOf? := by
  rw [← WireEvent.map_order_wire, replies, List.filterMap_map]
  change (h.wire.filter _).map _ = h.wire.filterMap _
  induction h.wire with
  | nil => rfl
  | cons x xs ih =>
    by_cases hx : x.author = .reading
    · have hreply : (replyOf? ∘ fun x ↦ x.order) x = some x.frame := if_pos hx
      rw [List.filterMap_cons_some hreply, List.filter_cons_of_pos (by simpa using hx),
        List.map_cons, ih]
    · have hreply : (replyOf? ∘ fun x ↦ x.order) x = none := if_neg hx
      rw [List.filterMap_cons_none hreply, List.filter_cons_of_neg (by simpa using hx), ih]

end History

/-! ### One step -/

/-- The answer that waits for its turn to be written. -/
def Connection.queuedReply (c : Connection) : List Bytes :=
  match c.reading with
  | .replying (.queued frame) => [frame]
  | _ => []

variable {capacity : Nat} {sent : Bytes} {read : List String} {h : History}
  {s t : ConnectionSession} {n : Nat}

/-- The frames that the task that reads begins with. -/
def History.begunReplies (h : History) : List Bytes :=
  (h.events.filterMap WireEvent.opened?).filterMap replyOf?

@[simp]
theorem History.begunReplies_append (h more : History) :
    begunReplies (h ++ more) = begunReplies h ++ begunReplies more := by
  rw [begunReplies, events_append, List.filterMap_append, List.filterMap_append]
  rfl

private theorem begunReplies_map_wire (log : List WireEvent)
    (others : ∀ e ∈ log, ∀ frame, e ≠ .opened .reading frame) :
    History.begunReplies (log.map .wire) = [] := by
  rw [History.begunReplies, History.events_map_wire, List.filterMap_eq_nil_iff]
  rintro ⟨author, frame⟩ horder
  obtain ⟨e, he, hopened⟩ := List.mem_filterMap.mp horder
  cases e with
  | opened author' frame' =>
    cases hopened
    apply if_neg
    rintro rfl
    exact others _ he frame rfl
  | _ => cases hopened

/-- A body shows the response that it is, and no answer is begun. -/
theorem Connection.bodyShows_spec (body : String) :
    History.responses (bodyShows body) = (ServerMessage.response? body).toList ∧
      History.begunReplies (bodyShows body) = [] := by
  unfold bodyShows ServerMessage.response?
  cases ServerMessage.decode body with
  | error f => exact ⟨rfl, rfl⟩
  | ok message => cases message <;> exact ⟨rfl, rfl⟩

/-- A step of the task that reads that acts on no body shows no response, and it begins an answer
if one has waited. -/
theorem Connection.readingShows_of_body?_eq_none {c d : Connection} {notice : Option ServerNotice}
    (isOpen : c.IsOpen capacity) (silent : c.body? = none)
    (step : c.stepReading? = some (d, notice)) :
    History.responses c.readingShows = [] ∧
      History.begunReplies c.readingShows ++ d.queuedReply = c.queuedReply := by
  have told : ¬ c.stopping = true := Bool.eq_false_iff.mp isOpen.going
  unfold stepReading? at step
  unfold body? at silent
  unfold readingShows
  cases hr : c.reading with
  | ended =>
    rw [hr] at step
    cases step
  | fetching call =>
    rw [hr] at step silent
    simp only [if_neg told] at step silent ⊢
    have hbefore : c.queuedReply = [] := by simp only [queuedReply, hr]
    rw [hbefore]
    split at step
    · cases step
    · next hstep =>
      cases step
      rw [hstep]
      exact ⟨rfl, rfl⟩
    · next answer t hstep =>
      rw [hstep] at silent ⊢
      cases answer with
      | error f =>
        simp only [receiveFrame, Option.some.injEq] at step
        split at step <;> cases step <;> exact ⟨rfl, rfl⟩
      | ok body? =>
        cases body? with
        | none =>
          cases step
          exact ⟨rfl, rfl⟩
        | some body => cases silent
  | replying call =>
    rw [hr] at step
    simp only [if_neg told] at step ⊢
    refine ⟨History.responses_map_wire _, ?_⟩
    split at step
    · cases step
    · next call' t hstep =>
      cases step
      generalize hn : (Progress.running call', t) = next at hstep
      cases WriteCall.takes_of_step? hstep with
      | @opens data first held =>
        cases hn
        have hshows : (WriteCall.queued data).shows .reading c.transport =
            [.opened .reading data] := by
          simp [WriteCall.shows, first, held]
        rw [hshows]
        simp only [queuedReply, hr]
        rfl
      | @sends rest left sink more write =>
        cases hn
        have hbefore : c.queuedReply = [] := by simp only [queuedReply, hr]
        rw [hbefore, begunReplies_map_wire]
        · rfl
        · intro e he frame
          obtain ⟨frame', rfl⟩ | ⟨bytes, rfl⟩ := WriteCall.mem_shows he
          · simp only [WriteCall.shows] at he
            split at he
            · cases List.mem_singleton.mp he
            · cases he
          · simp
      | refuses | fails | completes => cases hn
    · next answer t hstep =>
      cases step
      have hshows := WriteCall.shows_of_finished hstep
      generalize hn : (Progress.finished answer, t) = next at hstep
      cases WriteCall.takes_of_step? hstep with
      | opens | sends => cases hn
      | refuses first gone =>
        rw [isOpen.transport.holdsSink] at gone
        cases gone
      | fails | completes =>
        have hbefore : c.queuedReply = [] := by simp only [queuedReply, hr]
        rw [hbefore, hshows]
        rfl

/-! ### Runs -/

namespace ConnectionSession

private theorem startShows_spec (s : ConnectionSession) (n : Nat) (r : ConnectionRequest) :
    History.responses (s.startShows n r) = [] ∧ History.begunReplies (s.startShows n r) = [] := by
  cases r with
  | call request limit =>
    simp only [startShows]
    split <;> exact ⟨rfl, rfl⟩
  | notify notice => exact ⟨rfl, rfl⟩
  | close => exact ⟨rfl, rfl⟩

private theorem advanceShows_spec (s : ConnectionSession) (n : Nat) :
    History.responses (s.advanceShows n) = [] ∧ History.begunReplies (s.advanceShows n) = [] := by
  obtain ⟨log, hlog, hcases⟩ := advanceShows_eq s n
  rw [hlog]
  refine ⟨History.responses_map_wire log, begunReplies_map_wire log fun e he frame ↦ ?_⟩
  obtain ⟨frame', rfl⟩ | ⟨bytes, rfl⟩ := hcases e he
  · simp
  · simp

/-- On every run of an open connection, the responses that were decoded are those among the bodies
that were read, and the answers that were begun, with the one that waits, are those to the
requests among them. -/
theorem Serving.responses_and_replies (serving : Serving capacity sent read h s) :
    h.responses = read.filterMap ServerMessage.response? ∧
      h.begunReplies ++ s.connection.queuedReply = read.filterMap ServerMessage.reply? := by
  induction serving with
  | opened => exact ⟨rfl, rfl⟩
  | @start _ _ _ s _ n r fresh stays ih =>
    obtain ⟨hresponses, hreplies⟩ := startShows_spec s n r
    have hqueued : (s.start n r).connection.queuedReply = s.connection.queuedReply := by
      simp only [Connection.queuedReply, (start_reading s n r).1]
    rw [History.responses_append, hresponses, List.append_nil, History.begunReplies_append,
      hreplies, List.append_nil, hqueued]
    exact ih
  | @advance _ _ _ s t _ n step ih =>
    obtain ⟨hresponses, hreplies⟩ := advanceShows_spec s n
    have hqueued : t.connection.queuedReply = s.connection.queuedReply := by
      simp only [Connection.queuedReply, (advance_reading step).1]
    rw [History.responses_append, hresponses, List.append_nil, History.begunReplies_append,
      hreplies, List.append_nil, hqueued]
    exact ih
  | @read _ _ _ s _ serving step ih =>
    obtain ⟨hresponses, hreplies⟩ := ih
    have isOpen := serving.isOpen.connection
    simp only [advanceReading?, Option.map_eq_some_iff, Prod.exists] at step
    obtain ⟨d, notice, hstep, rfl⟩ := step
    rw [History.responses_append, History.begunReplies_append, List.filterMap_append,
      List.filterMap_append, ← hresponses, ← hreplies]
    cases hbody : s.connection.body? with
    | none =>
      obtain ⟨hshown, hbegun⟩ := Connection.readingShows_of_body?_eq_none isOpen hbody hstep
      rw [hshown, List.append_assoc, hbegun]
      exact ⟨rfl, (List.append_nil _).symm⟩
    | some body =>
      obtain ⟨call, t, hreading, -, -, hreceive, hshows⟩ :=
        Connection.stepReading?_of_body? hbody
      rw [hstep, Option.some.injEq] at hreceive
      obtain ⟨hshown, hbegun⟩ := Connection.bodyShows_spec body
      have hbefore : s.connection.queuedReply = [] := by
        simp only [Connection.queuedReply, hreading]
      have hafter : d.queuedReply = (ServerMessage.reply? body).toList := by
        obtain ⟨-, -, ⟨frame, hreply, hd⟩ | ⟨hreply, hd⟩⟩ :=
          Connection.receive_eq { s.connection with transport := t } isOpen.works body
        · rw [← hreceive] at hd
          simp only at hd
          simp only [Connection.queuedReply, hd, hreply, Option.toList_some]
        · rw [← hreceive] at hd
          simp only at hd
          rw [hd, hreply]
          rfl
      rw [hshows, hshown, hbegun, hbefore, hafter, List.append_nil, Option.toList_some]
      constructor
      · cases hresponse : ServerMessage.response? body <;> simp [hresponse]
      · cases hreply : ServerMessage.reply? body <;> simp [hreply]
  | arrive _ piece ih => exact ih
  | deliver _ count ih => exact ih
  | tick _ time ih => exact ih

/-! ### When everything has run -/

/-- An operation that takes no step is at no write that could go on. -/
private theorem step?_eq_none_of_stepTask? {task : ConnectionTask} {call : WriteCall} {now : Nat}
    {c : Connection} (writing : task.writing? = some call) (stuck : stepTask? n now task c = none) :
    call.step? (.operation n) c.transport = none := by
  cases task with
  | call k =>
    obtain ⟨id, ticket, limit, phase⟩ := k
    cases phase with
    | waiting due => cases writing
    | sending call' =>
      cases writing
      simp only [stepTask?, Option.map_eq_none_iff, Call.step?] at stuck
      split at stuck
      · assumption
      all_goals cases stuck
  | notify call' =>
    cases writing
    simpa only [stepTask?, Connection.stepNotice?, Option.map_eq_none_iff] using stuck
  | close k => cases writing

/-- When everything has run and the pipe to the server is not full, nobody is writing. -/
theorem Serving.idle_of_quiescent (serving : Serving capacity sent read h s)
    (quiescent : s.Quiescent) (room : s.connection.transport.sink.unread.length < capacity) :
    ∀ a, s.writers a = none := by
  have orderly := serving.run.orderly
  have isOpen := serving.isOpen.connection
  have free : s.connection.transport.writers.line = [] := by
    cases hline : s.connection.transport.writers.line with
    | nil => rfl
    | cons a line =>
      exfalso
      have first : s.connection.transport.writers.isHeldBy a = true := by
        simp [Lock.isHeldBy, hline]
      have hwriting : s.writers a ≠ none := (orderly.inLine a).mp (by simp [hline])
      obtain ⟨call, hcall⟩ := Option.ne_none_iff_exists'.mp hwriting
      obtain ⟨next, hnext⟩ := WriteCall.exists_step? (c := call) isOpen.transport first room
      cases a with
      | operation n =>
        obtain ⟨task, htask, hw⟩ := Option.bind_eq_some_iff.mp hcall
        have hstuck := quiescent.advance?_eq_none n
        simp only [advance?, htask, Option.bind_eq_bind, Option.bind_some, Option.bind_eq_none_iff,
          Prod.forall, Option.pure_def, reduceCtorEq, imp_false] at hstuck
        have hnone : stepTask? n s.now task s.connection = none := by
          apply Option.eq_none_iff_forall_ne_some.mpr
          rintro ⟨progress, c⟩
          exact hstuck progress c
        rw [step?_eq_none_of_stepTask? hw hnone] at hnext
        cases hnext
      | reading =>
        have hreading : s.connection.reading = .replying call := by
          simp only [writers, Connection.replying?] at hcall
          split at hcall
          · cases hcall
            assumption
          · cases hcall
        have hquiet : s.advanceReading? = none := by
          simp only [Quiescent, advanceAny?] at quiescent
          split at quiescent
          · cases quiescent
          · assumption
        have told : ¬ s.connection.stopping = true := Bool.eq_false_iff.mp isOpen.going
        simp only [advanceReading?, Option.map_eq_none_iff, Connection.stepReading?, hreading,
          if_neg told, hnext] at hquiet
        split at hquiet
        · next hnone => cases hnone
        · cases hquiet
        · cases hquiet
  intro a
  by_contra hwriting
  have := (orderly.inLine a).mpr hwriting
  rw [free] at this
  cases this

/-- When nobody is writing on an open connection, all frames that were begun have gone out. -/
theorem Serving.sent_of_idle (serving : Serving capacity sent read h s)
    (idle : ∀ a, s.writers a = none) : ∀ x ∈ h.wire, x.sent = x.frame := by
  have orderly := serving.run.orderly
  have isOpen := serving.isOpen.connection
  intro x hx
  obtain hall | hgiven | hdead := orderly.idle (fun a rest hw ↦ by simp [idle a] at hw) x hx
  · exact hall
  · have hgave := History.mem_events_iff.mp (orderly.gaveUp x hx hgiven)
    have htold := (serving.run.gaveUp hgave).2.2
    rw [isOpen.going] at htold
    cases htold
  · rcases hdead with hbroken | hfault
    · exact absurd isOpen.transport.unbroken hbroken
    · rw [isOpen.transport.faultless] at hfault
      cases hfault

end ConnectionSession

end LanguageHub
