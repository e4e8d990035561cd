import LanguageHub.Proofs.Connection.Outgoing
import LanguageHub.Proofs.Connection.Reading

/-!
# Open connections

What comes of a connection that nobody closes, whose stream from the server goes on, and whose
handler works, with the bytes that the server has sent and the bodies that the task that reads has
acted on. The bodies are those that the server has sent, in order, up to the first that is too
great; the handler has received the notifications among them.
-/

namespace LanguageHub

/-! ### Open transports -/

/-- Both streams of a transport are held, the one from the server goes on, and the one to it takes
what is written as long as there is room. -/
structure Transport.IsOpen (capacity : Nat) (t : Transport) : Prop where
  unclosed : t.closed = false
  holdsSource : t.hasSource = true
  holdsSink : t.hasSink = true
  goesOn : t.ending = .undecided
  unbroken : t.sink.broken = none
  faultless : t.sink.faultyAt = none
  limited : t.sink.capacity = some capacity

variable {capacity : Nat} {a : Agent} {t u : Transport}

/-- A step of the read of a frame leaves an open transport open. -/
theorem FrameCall.isOpen_of_step? {c : FrameCall} {p : Progress FrameCall FrameAnswer}
    (isOpen : t.IsOpen capacity) (step : c.step? a t = some (p, u)) : u.IsOpen capacity := by
  obtain ⟨hclosed, hsource, hsink⟩ := held_of_step? step
  have hending := ending_of_step? step
  obtain ⟨-, hwritten⟩ := step?_sink step
  exact {
    unclosed := hclosed.trans isOpen.unclosed
    holdsSource := hsource.trans isOpen.holdsSource
    holdsSink := hsink.trans isOpen.holdsSink
    goesOn := hending.trans isOpen.goesOn
    unbroken := hwritten ▸ isOpen.unbroken
    faultless := hwritten ▸ isOpen.faultless
    limited := hwritten ▸ isOpen.limited }

/-- A step of a write leaves an open transport open. -/
theorem WriteCall.isOpen_of_step? {c : WriteCall} {p : Progress WriteCall (Except Failure Unit)}
    (isOpen : t.IsOpen capacity) (step : c.step? a t = some (p, u)) : u.IsOpen capacity := by
  have hfinish : ∀ answer, (finish a answer t).2 = { t with writers := t.writers.leave a } := by
    intro answer
    simp [finish, isOpen.unclosed]
  generalize hn : (p, u) = next at step
  cases takes_of_step? step with
  | opens | refuses =>
    cases hn
    exact { isOpen with }
  | sends more write =>
    cases hn
    obtain ⟨-, rfl, -, -⟩ := Outflow.write?_eq_ok write
    exact { isOpen with }
  | fails | completes =>
    have hu := congrArg Prod.snd hn
    rw [hfinish] at hu
    simp only at hu
    rw [hu]
    exact { isOpen with }

/-- Who comes first in the line of an open transport with room can go on writing. -/
theorem WriteCall.exists_step? {c : WriteCall}
    (isOpen : t.IsOpen capacity) (first : t.writers.isHeldBy a = true)
    (room : t.sink.unread.length < capacity) : ∃ next, c.step? a t = some next := by
  cases c with
  | queued data =>
    refine ⟨(.running (.writing data), t), ?_⟩
    rw [step?, if_pos first, if_pos isOpen.holdsSink]
  | writing rest =>
    cases rest with
    | nil => exact ⟨_, rfl⟩
    | cons b rest =>
      have hfault : t.sink.faultyAt ≠ some .write := by
        rw [isOpen.faultless]
        simp
      have hroom : t.sink.room (b :: rest).length ≠ 0 := by
        simp only [Outflow.room, isOpen.limited]
        omega
      simp only [step?, Outflow.write?, isOpen.unbroken, if_neg hfault, if_neg hroom]
      exact ⟨_, rfl⟩

namespace Connection

/-- The connection was closed from neither side, nobody has told the task that reads to stop, and
the handler works. -/
structure IsOpen (capacity : Nat) (c : Connection) : Prop where
  going : c.stopping = false
  works : c.handlerFails = false
  transport : c.transport.IsOpen capacity

variable {c d : Connection} {notice : Option ServerNotice}

/-- The server of an open connection is listened to. -/
theorem IsOpen.listens (isOpen : c.IsOpen capacity) : c.Listens :=
  ⟨isOpen.going, isOpen.transport.holdsSource, isOpen.transport.goesOn⟩

/-- The reading of a further frame leaves an open connection open. -/
theorem IsOpen.fetch (isOpen : c.IsOpen capacity) : c.fetch.IsOpen capacity :=
  ⟨isOpen.going, isOpen.works, { isOpen.transport with }⟩

/-- The end of the task that reads leaves the transport open. -/
theorem IsOpen.endReading (isOpen : c.IsOpen capacity) : c.endReading.IsOpen capacity :=
  ⟨isOpen.going, isOpen.works, { isOpen.transport with }⟩

/-- Acting on a frame leaves an open connection open. -/
theorem IsOpen.receiveFrame (isOpen : c.IsOpen capacity) (answer : FrameAnswer) :
    (c.receiveFrame answer).1.IsOpen capacity := by
  have hbody : ∀ body, (c.receive body).1.IsOpen capacity := by
    intro body
    unfold Connection.receive
    split
    · apply IsOpen.fetch
      exact ⟨isOpen.going, isOpen.works, isOpen.transport⟩
    · split
      · exact isOpen.endReading
      · exact isOpen.fetch
    · exact ⟨isOpen.going, isOpen.works, { isOpen.transport with }⟩
    · exact isOpen.fetch
  unfold Connection.receiveFrame
  split
  · exact hbody _
  · exact isOpen.endReading
  · split
    · exact isOpen.fetch
    · exact isOpen.endReading

/-- A step of the task that reads leaves an open connection open. -/
theorem IsOpen.stepReading? (isOpen : c.IsOpen capacity)
    (step : c.stepReading? = some (d, notice)) : d.IsOpen capacity := by
  have told : ¬ c.stopping = true := Bool.eq_false_iff.mp isOpen.going
  unfold Connection.stepReading? at step
  split at step
  · cases step
  · rw [if_neg told] at step
    split at step
    · cases step
    · next hstep =>
      cases step
      exact ⟨isOpen.going, isOpen.works, FrameCall.isOpen_of_step? isOpen.transport hstep⟩
    · next answer t hstep =>
      have isOpen' : IsOpen capacity { c with transport := t } :=
        ⟨isOpen.going, isOpen.works, FrameCall.isOpen_of_step? isOpen.transport hstep⟩
      have received := isOpen'.receiveFrame answer
      rw [Option.some.inj step] at received
      exact received
  · rw [if_neg told] at step
    split at step
    · cases step
    · next hstep =>
      cases step
      exact ⟨isOpen.going, isOpen.works, WriteCall.isOpen_of_step? isOpen.transport hstep⟩
    · next answer t hstep =>
      cases step
      apply IsOpen.fetch
      exact ⟨isOpen.going, isOpen.works, WriteCall.isOpen_of_step? isOpen.transport hstep⟩

end Connection

/-! ### Runs of an open connection -/

namespace ConnectionSession

/-- What can come of a connection that stays open, with the bytes that the server has sent, the
bodies that the task that reads has acted on, and the history. -/
inductive Serving (capacity : Nat) : Bytes → List String → History → ConnectionSession → Prop where
  | opened : Serving capacity [] [] [] (overPipes capacity false)
  | start {sent : Bytes} {read : List String} {h : History} {s : ConnectionSession}
      (serving : Serving capacity sent read h s) (n : Nat) (r : ConnectionRequest)
      (fresh : n ∉ s.numbers) (stays : r ≠ .close) :
      Serving capacity sent read (h ++ s.startShows n r) (s.start n r)
  | advance {sent : Bytes} {read : List String} {h : History} {s t : ConnectionSession}
      (serving : Serving capacity sent read h s) (n : Nat) (step : s.advance? n = some t) :
      Serving capacity sent read (h ++ s.advanceShows n) t
  | read {sent : Bytes} {read : List String} {h : History} {s t : ConnectionSession}
      (serving : Serving capacity sent read h s) (step : s.advanceReading? = some t) :
      Serving capacity sent (read ++ s.connection.body?.toList)
        (h ++ s.connection.readingShows) t
  | arrive {sent : Bytes} {read : List String} {h : History} {s : ConnectionSession}
      (serving : Serving capacity sent read h s) (piece : Bytes) :
      Serving capacity (sent ++ piece) read h (s.happen (.arrive piece))
  | deliver {sent : Bytes} {read : List String} {h : History} {s : ConnectionSession}
      (serving : Serving capacity sent read h s) (count : Nat) :
      Serving capacity sent read h (s.happen (.deliver count))
  | tick {sent : Bytes} {read : List String} {h : History} {s : ConnectionSession}
      (serving : Serving capacity sent read h s) (time : Duration) :
      Serving capacity sent read h (s.happen (.tick time))

/-- A run of an open connection goes on until nothing can. -/
theorem Serving.continues {sent : Bytes} {read : List String} {h : History} {s : ConnectionSession}
    (serving : Serving capacity sent read h s) (fuel : Nat) :
    ∃ read' h', Serving capacity sent read' h' (settle advanceAny? fuel s) := by
  induction fuel generalizing read h s with
  | zero => exact ⟨read, h, serving⟩
  | succ fuel ih =>
    simp only [settle]
    cases hstep : s.advanceAny? with
    | none => exact ⟨read, h, serving⟩
    | some t =>
      simp only [advanceAny?] at hstep
      split at hstep
      · next hread =>
        cases hstep
        exact ih (serving.read hread)
      · obtain ⟨n, _, hadvance⟩ := List.exists_of_findSome?_eq_some hstep
        exact ih (serving.advance n hadvance)

/-- A session whose connection is open and that nobody closes. -/
structure IsOpen (capacity : Nat) (s : ConnectionSession) : Prop where
  connection : s.connection.IsOpen capacity
  noClosing : ∀ n k, s.tasks.state? n ≠ some (.close k)

variable {sent : Bytes} {read : List String} {h : History} {s t : ConnectionSession} {n : Nat}

/-- A run of an open connection is a run of a connection. -/
theorem Serving.run (serving : Serving capacity sent read h s) :
    Run (overPipes capacity false) h s := by
  induction serving with
  | opened => exact .refl
  | start _ n r fresh _ ih => exact ih.start n r fresh
  | advance _ n step ih => exact ih.advance n step
  | read _ step ih => exact ih.read step
  | arrive _ piece ih => exact ih.event (.arrive piece)
  | deliver _ count ih => exact ih.event (.deliver count)
  | tick _ time ih => exact ih.event (.tick time)

private theorem isOpen_start (isOpen : s.IsOpen capacity) (fresh : n ∉ s.numbers)
    {r : ConnectionRequest} (stays : r ≠ .close) : (s.start n r).IsOpen capacity := by
  have hnumber : n ∉ s.tasks.numbers := fun hn ↦ fresh (List.mem_append_left _ hn)
  cases r with
  | close => exact absurd rfl stays
  | call request limit =>
    cases hc : s.connection.table.closed with
    | true =>
      simp only [start, Call.start, CallTable.register_of_closed hc]
      refine ⟨⟨isOpen.connection.going, isOpen.connection.works, isOpen.connection.transport⟩, ?_⟩
      intro m k hm
      rw [Tasks.state?_finish] at hm
      split at hm
      · cases hm
      · exact isOpen.noClosing m k hm
    | false =>
      obtain ⟨table, ticket, hregister⟩ := CallTable.register_of_open hc s.connection.nextId
      simp only [start, Call.start, hregister]
      refine ⟨⟨isOpen.connection.going, isOpen.connection.works,
        { isOpen.connection.transport with }⟩, ?_⟩
      intro m k hm
      rw [Tasks.state?_start hnumber] at hm
      split at hm
      · cases hm
      · exact isOpen.noClosing m k hm
  | notify notice =>
    refine ⟨⟨isOpen.connection.going, isOpen.connection.works,
      { isOpen.connection.transport with }⟩, ?_⟩
    intro m k hm
    simp only [start] at hm
    rw [Tasks.state?_start hnumber] at hm
    split at hm
    · cases hm
    · exact isOpen.noClosing m k hm

/-- A step of a task that is no closing leaves an open connection open. -/
private theorem isOpen_stepTask? {task : ConnectionTask} {c d : Connection} {now : Nat}
    {p : Progress ConnectionTask ConnectionAnswer} (isOpen : c.IsOpen capacity)
    (noClosing : ∀ k, task ≠ .close k) (step : stepTask? n now task c = some (p, d)) :
    d.IsOpen capacity ∧ ∀ k, p ≠ .running (.close k) := by
  cases task with
  | close k => exact absurd rfl (noClosing k)
  | notify call =>
    simp only [stepTask?, Connection.stepNotice?, Option.map_map, Option.map_eq_some_iff,
      Prod.exists] at step
    obtain ⟨q, u, hcall, hp⟩ := step
    have htransport := WriteCall.isOpen_of_step? isOpen.transport hcall
    cases q with
    | running call' =>
      cases hp
      exact ⟨⟨isOpen.going, isOpen.works, htransport⟩, by simp⟩
    | finished answer =>
      cases hp
      exact ⟨⟨isOpen.going, isOpen.works, htransport⟩, by simp⟩
  | call k =>
    simp only [stepTask?, Option.map_eq_some_iff, Prod.exists] at step
    obtain ⟨q, e, hk, hp⟩ := step
    have hopen : e.IsOpen capacity := by
      cases Call.takes_of_step? hk with
      | sends _ hcall =>
        exact ⟨isOpen.going, isOpen.works, WriteCall.isOpen_of_step? isOpen.transport hcall⟩
      | sent _ hcall =>
        exact ⟨isOpen.going, isOpen.works, WriteCall.isOpen_of_step? isOpen.transport hcall⟩
      | unsent _ hcall =>
        exact ⟨isOpen.going, isOpen.works, WriteCall.isOpen_of_step? isOpen.transport hcall⟩
      | answered | lost => exact isOpen
      | expires => exact ⟨isOpen.going, isOpen.works, isOpen.transport⟩
    cases q with
    | running k' =>
      cases hp
      exact ⟨hopen, by simp⟩
    | finished outcome =>
      cases hp
      exact ⟨hopen, by simp⟩

private theorem isOpen_advance (isOpen : s.IsOpen capacity) (step : s.advance? n = some t) :
    t.IsOpen capacity := by
  obtain ⟨task, progress, c, going, hstep, rfl⟩ := advance?_eq_some step
  have noClosing : ∀ k, task ≠ .close k := by
    rintro k rfl
    exact isOpen.noClosing n k going
  obtain ⟨hopen, hclosing⟩ := isOpen_stepTask? isOpen.connection noClosing hstep
  refine ⟨by rw [connection_record]; exact hopen, fun m k hm ↦ ?_⟩
  cases progress with
  | running next =>
    simp only [record, Tasks.state?_update, going] at hm
    split at hm
    · cases hm
      exact hclosing k rfl
    · exact isOpen.noClosing m k hm
  | finished answer =>
    simp only [record, Tasks.state?_finish] at hm
    split at hm
    · cases hm
    · exact isOpen.noClosing m k hm

/-- An open connection stays open. -/
theorem Serving.isOpen (serving : Serving capacity sent read h s) : s.IsOpen capacity := by
  induction serving with
  | opened =>
    refine ⟨⟨rfl, rfl, ⟨rfl, rfl, rfl, rfl, rfl, rfl, rfl⟩⟩, ?_⟩
    simp [overPipes, Tasks.state?]
  | start _ n r fresh stays ih => exact isOpen_start ih fresh stays
  | advance _ n step ih => exact isOpen_advance ih step
  | @read _ _ _ s _ _ step ih =>
    simp only [advanceReading?, Option.map_eq_some_iff, Prod.exists] at step
    obtain ⟨c, notice, hstep, rfl⟩ := step
    exact ⟨ih.connection.stepReading? hstep, ih.noClosing⟩
  | @arrive _ _ _ s _ piece ih =>
    refine ⟨⟨ih.connection.going, ih.connection.works,
      { ih.connection.transport with goesOn := ?_ }⟩, ih.noClosing⟩
    have hending : (s.connection.transport.source.inflow.push piece).ending =
        s.connection.transport.source.inflow.ending := by
      unfold Inflow.push
      split <;> rfl
    exact hending.trans ih.connection.transport.goesOn
  | deliver _ count ih =>
    exact ⟨⟨ih.connection.going, ih.connection.works, { ih.connection.transport with }⟩,
      ih.noClosing⟩
  | tick _ time ih => exact ⟨ih.connection, ih.noClosing⟩

/-! ### What is read -/

/-- What has been read and what is left to be read. -/
structure ReadsOn (read : List String) (bodies : List String) (later : Bytes)
    (s : ConnectionSession) : Prop where
  left : ∃ rest, bodies = read ++ rest ∧ s.connection.Follows rest later
  fits : ∀ b ∈ read, Frame.Fits b

/-- On every run of an open connection, if the server sends the frames of some bodies, then those
that were read are the first of them. -/
theorem Serving.readsOn (serving : Serving capacity sent read h s) {bodies : List String}
    (sized : ∀ b ∈ bodies, Frame.Sized b) {later : Bytes}
    (frames : sent ++ later = bodies.flatMap Frame.encode) : s.ReadsOn read bodies later := by
  induction serving generalizing later with
  | opened =>
    refine ⟨⟨bodies, rfl, ?_⟩, by simp⟩
    exact Connection.follows_ofTransport rfl (by simp [Source.Solid, Inflow.Solid]) false frames
  | @start _ _ _ s serving n r fresh stays ih =>
    obtain ⟨⟨rest, hrest, follows⟩, fits⟩ := ih frames
    exact ⟨⟨rest, hrest, follows.spared (moves_start s n r).spares⟩, fits⟩
  | @advance _ _ _ s _ serving n step ih =>
    obtain ⟨⟨rest, hrest, follows⟩, fits⟩ := ih frames
    obtain ⟨task, progress, c, going, hstep, rfl⟩ := advance?_eq_some step
    have spares : Connection.Spares s.connection (s.record n c progress).connection := by
      rw [connection_record]
      exact (moves_stepTask? hstep).spares
    exact ⟨⟨rest, hrest, follows.spared spares⟩, fits⟩
  | @read _ read _ s _ serving step ih =>
    obtain ⟨⟨rest, hrest, follows⟩, fits⟩ := ih frames
    have isOpen := serving.isOpen.connection
    simp only [advanceReading?, Option.map_eq_some_iff, Prod.exists] at step
    obtain ⟨d, notice, hstep, rfl⟩ := step
    have sized' : ∀ b ∈ rest, Frame.Sized b := fun b hb ↦
      sized b (hrest ▸ List.mem_append_right _ hb)
    have allowed : s.connection.transport.source.inflow.Allows later .ended :=
      ⟨by simp, .inl isOpen.transport.goesOn⟩
    obtain ⟨rest', hrest', fits', follows'⟩ := follows.step sized' allowed isOpen.works hstep
    refine ⟨⟨rest', ?_, follows'⟩, fun b hb ↦ ?_⟩
    · rw [hrest, hrest', List.append_assoc]
    · rcases List.mem_append.mp hb with hb | hb
      · exact fits b hb
      · exact fits' b (Option.mem_toList.mp hb)
  | @arrive _ _ _ s serving piece ih =>
    rw [List.append_assoc] at frames
    obtain ⟨⟨rest, hrest, follows⟩, fits⟩ := ih frames
    have goesOn := serving.isOpen.connection.transport.goesOn
    exact ⟨⟨rest, hrest, follows.arrive goesOn⟩, fits⟩
  | @deliver _ _ _ s serving count ih =>
    obtain ⟨⟨rest, hrest, follows⟩, fits⟩ := ih frames
    have spares : Connection.Spares s.connection (s.happen (.deliver count)).connection :=
      .of_eq rfl rfl rfl rfl rfl rfl
    exact ⟨⟨rest, hrest, follows.spared spares⟩, fits⟩
  | tick serving time ih => exact ⟨(ih frames).left, (ih frames).fits⟩

/-! ### What comes of the bodies -/

/-- On every run of an open connection the handler has received the notifications among the bodies
that were read. -/
theorem Serving.handled (serving : Serving capacity sent read h s) :
    s.handled = read.filterMap ServerMessage.notice? := by
  induction serving with
  | opened => rfl
  | @start _ _ _ s _ n r fresh stays ih =>
    rw [← ih]
    cases r with
    | call request limit =>
      simp only [ConnectionSession.start]
      split <;> rfl
    | notify notice => rfl
    | close => rfl
  | advance _ n step ih =>
    obtain ⟨task, progress, c, _, _, rfl⟩ := advance?_eq_some step
    rw [← ih]
    cases progress <;> rfl
  | @read _ _ _ s _ serving step ih =>
    simp only [advanceReading?, Option.map_eq_some_iff, Prod.exists] at step
    obtain ⟨d, notice, hstep, rfl⟩ := step
    rw [List.filterMap_append, ← ih]
    apply congrArg (s.handled ++ ·)
    rw [Connection.notice_of_stepReading? serving.isOpen.connection.works hstep]
    cases s.connection.body? with
    | none => rfl
    | some body =>
      rw [Option.bind_some, Option.toList_some, List.filterMap_cons, List.filterMap_nil]
      cases ServerMessage.notice? body <;> rfl
  | arrive _ piece ih => exact ih
  | deliver _ count ih => exact ih
  | tick _ time ih => exact ih

/-- A step of the task that reads offers the body that it acts on to the table of waiting calls,
unless it ends. -/
theorem Serving.offers (serving : Serving capacity sent read h s)
    (step : s.advanceReading? = some t) (goesOn : t.connection.reading ≠ .ended) :
    t.connection.table =
      s.connection.body?.elim s.connection.table s.connection.table.offer := by
  simp only [advanceReading?, Option.map_eq_some_iff, Prod.exists] at step
  obtain ⟨d, notice, hstep, rfl⟩ := step
  cases hbody : s.connection.body? with
  | none => exact (Connection.stepReading?_of_body?_eq_none hbody hstep).2 goesOn
  | some body =>
    obtain ⟨call, t, -, -, -, hreceive, -⟩ := Connection.stepReading?_of_body? hbody
    rw [hstep, Option.some.injEq] at hreceive
    obtain ⟨-, htable, -⟩ := Connection.receive_eq { s.connection with transport := t }
      serving.isOpen.connection.works body
    rw [← hreceive] at htable
    exact htable

end ConnectionSession

end LanguageHub
