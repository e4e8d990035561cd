import LanguageHub.Proofs.Connection.Replies
import LanguageHub.Proofs.Connection.Settling

/-!
# The task that reads folds over the bodies

On an open connection the task that reads acts on the bodies that the server sends one after
another, up to the first that is too great. Once everything has run, the handler has received the
notifications among them, the server has been sent the answers to the requests among them, and
each response among them was offered to the table of waiting calls; a body that is none of these
makes no difference to anything and stops nothing.
-/

namespace LanguageHub

open ServerMessage

/-- A body that can make no difference: it is no message that is understood, or a response under an
id with which no call waits. -/
def CallTable.Ignores (t : CallTable) (body : String) : Prop :=
  (∃ f, decode body = .error f) ∨ ∃ id outcome, response? body = some (id, outcome) ∧ id ∉ t.ids

/-- Such a body is no notification and is not answered, and it leaves the table as it is. -/
theorem CallTable.Ignores.spec {t : CallTable} {body : String} (ignores : t.Ignores body) :
    notice? body = none ∧ reply? body = none ∧ t.offer body = t := by
  unfold notice? reply? requestId? CallTable.offer
  obtain ⟨f, hdecode⟩ | ⟨id, outcome, hresponse, hid⟩ := ignores
  · simp [response?, hdecode]
  · simp only [hresponse, CallTable.resolve, CallTable.take_of_notMem hid]
    unfold response? at hresponse
    split at hresponse
    · next hdecode => simp [hdecode]
    · cases hresponse

namespace ConnectionSession

variable {capacity : Nat} {sent : Bytes} {read : List String} {h : History}
  {s t : ConnectionSession}

/-- A step that acts on a body that can make no difference makes none, and the next frame is
read. -/
theorem Serving.ignores (serving : Serving capacity sent read h s)
    (step : s.advanceReading? = some t) {body : String} (taken : s.connection.body? = some body)
    (ignores : s.connection.table.Ignores body) :
    t.handled = s.handled ∧ t.tasks = s.tasks ∧ t.connection.table = s.connection.table ∧
      t.connection.transport.sink = s.connection.transport.sink ∧
      t.connection.transport.writers = s.connection.transport.writers ∧
      ∃ call, t.connection.reading = .fetching call := by
  obtain ⟨hnotice, hreply, htable⟩ := ignores.spec
  obtain ⟨call, u, -, -, hcall, hreceive, -⟩ := Connection.stepReading?_of_body? taken
  obtain ⟨hwriters, hsink⟩ := FrameCall.step?_sink hcall
  obtain ⟨hhandled, -, ⟨frame, hframe, -⟩ | ⟨-, hfetch⟩⟩ :=
    Connection.receive_eq { s.connection with transport := u }
      serving.isOpen.connection.works body
  · rw [hreply] at hframe
    cases hframe
  · simp only [advanceReading?, hreceive, Option.map_some, Option.some.injEq] at step
    rw [hhandled, hnotice, hfetch] at step
    subst step
    refine ⟨List.append_nil _, rfl, htable, hsink, hwriters, _, rfl⟩

/-- When everything has run, what was read are the readable ones among the bodies, and the task
that reads has ended if there are others. -/
theorem Serving.read_eq (serving : Serving capacity sent read h s) {bodies : List String}
    (sized : ∀ b ∈ bodies, Frame.Sized b) (frames : sent = bodies.flatMap Frame.encode)
    (quiescent : s.Quiescent) (room : s.connection.transport.sink.unread.length < capacity) :
    read = Frame.readable bodies ∧
      (s.connection.reading = .ended ↔ ∃ b ∈ bodies, ¬ Frame.Fits b) := by
  obtain ⟨⟨rest, hrest, hawaits, hended⟩, hfits⟩ := 
    serving.readsOn sized ((List.append_nil sent).trans frames)
  have sized' : ∀ b ∈ rest, Frame.Sized b := fun b hb ↦
    sized b (hrest ▸ List.mem_append_right _ hb)
  rw [hrest, Frame.readable_append hfits]
  cases hreading : s.connection.reading with
  | ended =>
    obtain ⟨first, others, hfirst, hgreat⟩ := hended serving.isOpen.connection.listens hreading
    rw [hfirst, Frame.readable_cons_of_not_fits hgreat, List.append_nil]
    refine ⟨rfl, fun _ ↦ ⟨first, ?_, hgreat⟩, fun _ ↦ rfl⟩
    exact List.mem_append_right _ List.mem_cons_self
  | replying call =>
    have hidle := serving.idle_of_quiescent quiescent room .reading
    simp [writers, Connection.replying?, hreading] at hidle
  | fetching call =>
    have hstuck : s.connection.stepReading? = none := by
      simp only [Quiescent, advanceAny?] at quiescent
      split at quiescent
      · cases quiescent
      · next hnone => exact Option.map_eq_none_iff.mp hnone
    have hnil := hawaits.eq_nil sized' hreading hstuck
    subst hnil
    have fits : ¬ ∃ b ∈ read ++ [], ¬ Frame.Fits b := by
      rintro ⟨b, hb, hgreat⟩
      rw [List.append_nil] at hb
      exact hgreat (hfits b hb)
    refine ⟨(List.append_nil _).symm, iff_of_false ?_ fits⟩
    intro h
    cases h

/-- The task that reads acts on the bodies that the server sends in their order and once each, and
what comes of them is a fold over them. -/
theorem reading_folds_bodies (serving : Serving capacity sent read h s) :
    (s.handled = read.filterMap notice? ∧ h.responses = read.filterMap response?) ∧
    (∀ t, s.advanceReading? = some t →
      (t.connection.reading ≠ .ended → t.connection.table =
        s.connection.body?.elim s.connection.table s.connection.table.offer) ∧
      ∀ body, s.connection.body? = some body → s.connection.table.Ignores body →
        t.handled = s.handled ∧ t.tasks = s.tasks ∧ t.connection.table = s.connection.table ∧
        t.connection.transport.sink = s.connection.transport.sink ∧
        t.connection.transport.writers = s.connection.transport.writers ∧
        ∃ call, t.connection.reading = .fetching call) ∧
    ∀ bodies, (∀ b ∈ bodies, Frame.Sized b) → sent = bodies.flatMap Frame.encode →
      read <+: Frame.readable bodies ∧
      (∃ fuel read' h', Serving capacity sent read' h' (settle advanceAny? fuel s) ∧
        (settle advanceAny? fuel s).Quiescent) ∧
      (s.Quiescent → s.connection.transport.sink.unread.length < capacity →
        read = Frame.readable bodies ∧
        h.replies.map (·.sent) = (Frame.readable bodies).filterMap reply? ∧
        s.connection.transport.sink.written = h.wire.flatMap (·.sent) ∧
        (∀ x ∈ h.wire, x.sent = x.frame) ∧
        (s.connection.reading = .ended ↔ ∃ b ∈ bodies, ¬ Frame.Fits b)) := by
  obtain ⟨hresponses, hreplies⟩ := serving.responses_and_replies
  refine ⟨⟨serving.handled, hresponses⟩, fun t step ↦ ⟨serving.offers step, ?_⟩, ?_⟩
  · intro body taken ignores
    exact serving.ignores step taken ignores
  · intro bodies sized frames
    refine ⟨?_, serving.exists_quiescent sized frames, fun quiescent room ↦ ?_⟩
    · obtain ⟨⟨rest, hrest, -⟩, hfits⟩ := 
        serving.readsOn sized ((List.append_nil sent).trans frames)
      rw [hrest, Frame.readable_append hfits]
      exact List.prefix_append _ _
    · obtain ⟨hread, hended⟩ := serving.read_eq sized frames quiescent room
      have hidle := serving.idle_of_quiescent quiescent room
      have hsent := serving.sent_of_idle hidle
      have hqueued : s.connection.queuedReply = [] := by
        have hreading := hidle .reading
        simp only [writers, Connection.replying?] at hreading
        unfold Connection.queuedReply
        split
        · next hstage => simp [hstage] at hreading
        · rfl
      refine ⟨hread, ?_, serving.run.orderly.written, hsent, hended⟩
      have hframes : h.replies.map (·.sent) = h.replies.map (·.frame) := by
        apply List.map_congr_left
        intro x hx
        exact hsent x (List.mem_filter.mp hx).1
      rw [hqueued, List.append_nil] at hreplies
      rw [hframes, History.map_frame_replies, ← hread]
      exact hreplies

/-- A message for the user. -/
def shortBody : String :=
  "\x7b\"method\":\"window/logMessage\",\"params\":\x7b\"type\":4,\"message\":\"ok\"\x7d\x7d"

/-- A request, a body that is no message, and a message for the user. -/
def threeBodies : List String :=
  ["\x7b\"id\":7,\"method\":\"m\"\x7d", "\x7b", shortBody]

/-- The server sends three bodies, and everything runs. -/
def servedThree : ConnectionSession :=
  settle advanceAny? 60
    ((overPipes 1000 false).happen (.arrive (threeBodies.flatMap Frame.encode)))

/-- The body that is no message stops nothing: the message behind it reaches the handler. -/
theorem handled_servedThree : ∃ read h,
    Serving 1000 (threeBodies.flatMap Frame.encode) read h servedThree ∧
      servedThree.handled = [.logMessage ⟨4, "ok"⟩] ∧
      h.replies.map (·.sent) = [Frame.encode (encodeNullReply (Json.ofInt 7))] := by
  have begins : Serving 1000 [] [] [] (overPipes 1000 false) := .opened
  have arrived := begins.arrive (threeBodies.flatMap Frame.encode)
  obtain ⟨read, h, serving⟩ := arrived.continues 60
  have serving : Serving 1000 (threeBodies.flatMap Frame.encode) read h servedThree := serving
  obtain ⟨⟨handled, -⟩, -, rest⟩ := reading_folds_bodies serving
  have sized : ∀ b ∈ threeBodies, Frame.Sized b := by
    unfold Frame.Sized
    decide +kernel
  have quiescent : servedThree.Quiescent := by
    apply Option.isNone_iff_eq_none.mp
    decide +kernel
  obtain ⟨-, -, quiet⟩ := rest threeBodies sized rfl
  obtain ⟨hread, hreplies, -⟩ := quiet quiescent (by decide +kernel)
  refine ⟨read, h, serving, ?_, ?_⟩
  · rw [handled, hread]
    decide +kernel
  · rw [hreplies]
    decide +kernel

/-! ### A body that is too great -/

/-- While nobody writes and no body is acted on, the task that reads writes nothing. -/
private theorem silent_step {c d : Connection} {notice : Option ServerNotice}
    (silent : c.body? = none) (fetches : c.replying? = none)
    (step : c.stepReading? = some (d, notice)) :
    d.replying? = none ∧ d.transport.sink = c.transport.sink := by
  unfold Connection.stepReading? at step
  unfold Connection.body? at silent
  unfold Connection.replying? at fetches
  cases hr : c.reading with
  | ended =>
    rw [hr] at step
    cases step
  | replying call =>
    rw [hr] at fetches
    cases fetches
  | fetching call =>
    rw [hr] at step silent
    simp only at step silent
    split at step
    · cases step
      exact ⟨rfl, rfl⟩
    · next going =>
      rw [if_neg going] at silent
      split at step
      · cases step
      · next hstep =>
        cases step
        exact ⟨rfl, (FrameCall.step?_sink hstep).2⟩
      · next answer t hstep =>
        have hsink := (FrameCall.step?_sink hstep).2
        rw [hstep] at silent
        cases answer with
        | error f =>
          simp only [Connection.receiveFrame, Option.some.injEq] at step
          split at step <;> cases step <;> exact ⟨rfl, hsink⟩
        | ok body? =>
          cases body? with
          | some body => cases silent
          | none =>
            cases step
            exact ⟨rfl, hsink⟩

/-- A connection without operations, on which nothing can be read, writes nothing. -/
private theorem Serving.unread_settle (serving : Serving capacity sent read h s)
    (nothing : ∀ read h s, Serving capacity sent read h s → read = [])
    (alone : s.tasks.numbers = []) (fetches : s.connection.replying? = none)
    (unread : s.connection.transport.sink.unread = []) (fuel : Nat) :
    (settle advanceAny? fuel s).connection.transport.sink.unread = [] := by
  induction fuel generalizing read h s with
  | zero => exact unread
  | succ fuel ih =>
    simp only [settle]
    split
    · exact unread
    · next t hstep =>
      simp only [advanceAny?, alone, List.findSome?_nil] at hstep
      split at hstep
      · next hread =>
        cases hstep
        have serving' := serving.read hread
        have silent : s.connection.body? = none := by
          have hnil := nothing _ _ _ serving'
          exact Option.toList_eq_nil_iff.mp (List.append_eq_nil_iff.mp hnil).2
        simp only [advanceReading?, Option.map_eq_some_iff, Prod.exists] at hread
        obtain ⟨d, notice, hstep, rfl⟩ := hread
        obtain ⟨hfetches, hsink⟩ := silent_step silent fetches hstep
        exact ih serving' alone hfetches ((congrArg Outflow.unread hsink).trans unread)
      · cases hstep

/-- Behind a body that is too great nothing is read: when everything has run, the handler has
received nothing, and there is room in the pipe to the server. -/
theorem nothing_behind_great {first : String} {others : List String}
    (sized : ∀ b ∈ first :: others, Frame.Sized b) (great : ¬ Frame.Fits first) (capacity : Nat) :
    ∃ fuel read h,
      let s := settle advanceAny? fuel
        ((overPipes capacity false).happen (.arrive ((first :: others).flatMap Frame.encode)))
      Serving capacity ((first :: others).flatMap Frame.encode) read h s ∧ s.Quiescent ∧
        s.connection.transport.sink.unread = [] ∧ s.handled = [] := by
  have nothing : ∀ read h s,
      Serving capacity ((first :: others).flatMap Frame.encode) read h s → read = [] := by
    intro read h s serving
    obtain ⟨⟨rest, hrest, -⟩, hfits⟩ := serving.readsOn sized (List.append_nil _)
    have hreadable : Frame.readable (read ++ rest) = read ++ Frame.readable rest :=
      Frame.readable_append hfits
    rw [← hrest, Frame.readable_cons_of_not_fits great] at hreadable
    exact (List.append_eq_nil_iff.mp hreadable.symm).1
  have begins : Serving capacity [] [] [] (overPipes capacity false) := .opened
  have arrived := begins.arrive ((first :: others).flatMap Frame.encode)
  obtain ⟨fuel, read, h, serving, quiescent⟩ := arrived.exists_quiescent sized rfl
  refine ⟨fuel, read, h, serving, quiescent, ?_, ?_⟩
  · exact arrived.unread_settle nothing rfl rfl rfl fuel
  · rw [serving.handled, nothing _ _ _ serving]
    rfl

/-- A text of so many letters. -/
def letters (n : Nat) : String := String.ofList (List.replicate n 'a')

theorem utf8ByteSize_letters (n : Nat) : (letters n).utf8ByteSize = n := by
  induction n with
  | zero => rfl
  | succ n ih =>
    have hone : (String.ofList ['a']).utf8ByteSize = 1 := by decide
    rw [letters, List.replicate_succ, ← List.singleton_append, String.ofList_append,
      String.utf8ByteSize_append, hone]
    rw [letters] at ih
    omega

/-- The message behind a body that is too great by one byte never reaches the handler, although
everything has run and there is room in the pipe to the server. -/
theorem exists_unread_body : ∃ bodies fuel read h,
    let s := settle advanceAny? fuel
      ((overPipes 1000 false).happen (.arrive (bodies.flatMap Frame.encode)))
    bodies = [letters (Frame.greatestBody + 1), shortBody] ∧
      Serving 1000 (bodies.flatMap Frame.encode) read h s ∧ s.Quiescent ∧
      s.connection.transport.sink.unread = [] ∧ s.handled ≠ bodies.filterMap notice? := by
  have hsize := utf8ByteSize_letters (Frame.greatestBody + 1)
  generalize hgreat : letters (Frame.greatestBody + 1) = body at hsize
  have sized : ∀ b ∈ [body, shortBody], Frame.Sized b := by
    intro b hb
    rcases List.mem_cons.mp hb with rfl | hb
    · rw [Frame.Sized, hsize]
      decide
    · cases List.mem_singleton.mp hb
      rw [Frame.Sized]
      decide +kernel
  have great : ¬ Frame.Fits body := by
    rw [Frame.Fits, hsize]
    exact Nat.not_succ_le_self _
  obtain ⟨fuel, read, h, serving, quiescent, unread, handled⟩ :=
    nothing_behind_great sized great 1000
  refine ⟨[body, shortBody], fuel, read, h, rfl, serving, quiescent, unread, ?_⟩
  have hnotice : notice? shortBody = some (.logMessage ⟨4, "ok"⟩) := by decide +kernel
  have hmem : ServerNotice.logMessage ⟨4, "ok"⟩ ∈ [body, shortBody].filterMap notice? :=
    List.mem_filterMap.mpr ⟨shortBody, by simp, hnotice⟩
  rw [handled]
  intro hempty
  rw [← hempty] at hmem
  cases hmem

end ConnectionSession

end LanguageHub
