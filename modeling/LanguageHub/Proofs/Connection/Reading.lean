import LanguageHub.Proofs.Connection.Bodies
import LanguageHub.Proofs.Connection.Moves

/-!
# The bodies that are left to be read

The task that reads takes the bodies of the frames that come, one after another, and acts on each
of them once. What is left to be read after some steps is what was left before them without the
bodies that were taken (`Connection.Awaits.step`).
-/

namespace LanguageHub.Connection

variable {c d : Connection} {notice : Option ServerNotice}

/-! ### What is left to be read -/

/-- These bodies are left to be read if these bytes come behind those that have arrived. -/
inductive Awaits (c : Connection) (bodies : List String) (later : Bytes) : Prop where
  /-- The read that is going on gives what a read of the frames of these bodies gives. -/
  | fetching {call : FrameCall} (stage : c.reading = .fetching call)
      (line : c.transport.readers.line = [.reading]) (solid : c.transport.source.Solid)
      (whole : call.call.goal.IsWhole)
      (outcome : ∀ ending, c.transport.source.inflow.Allows later ending →
        call.outcome (c.transport.incoming ++ later) ending =
          Frame.readBehind "" (bodies.flatMap Frame.encode) ending)
  | replying {call : WriteCall} (stage : c.reading = .replying call)
      (line : c.transport.readers.line = []) (solid : c.transport.source.Solid)
      (bytes : c.transport.incoming ++ later = bodies.flatMap Frame.encode)
  | ended (stage : c.reading = .ended)

variable {bodies : List String} {later : Bytes}

/-- What is left to be read depends on the task that reads and on its stream alone. -/
theorem Awaits.congr (awaits : c.Awaits bodies later) (reading : d.reading = c.reading)
    (source : d.transport.source = c.transport.source)
    (readers : d.transport.readers = c.transport.readers) : d.Awaits bodies later := by
  have incoming : d.transport.incoming = c.transport.incoming := congrArg Source.toBytes source
  cases awaits with
  | fetching stage line solid whole outcome =>
    refine .fetching (reading.trans stage) (readers ▸ line) (source ▸ solid) whole ?_
    rw [source, incoming]
    exact outcome
  | replying stage line solid bytes =>
    refine .replying (reading.trans stage) (readers ▸ line) (source ▸ solid) ?_
    rw [incoming]
    exact bytes
  | ended stage => exact .ended (reading.trans stage)

/-- A connection that is opened has everything before it. -/
theorem awaits_ofTransport {t : Transport} (line : t.readers.line = []) (solid : t.source.Solid)
    (handlerFails : Bool) (bytes : t.incoming ++ later = bodies.flatMap Frame.encode) :
    (ofTransport t handlerFails).Awaits bodies later := by
  refine .fetching rfl ?_ solid trivial fun ending _ ↦ ?_
  · simp [ofTransport, FrameCall.start, FrameCall.readLine, ReadCall.start, Lock.request, line]
  · have hstart := FrameCall.outcome_start .reading t (t.incoming ++ later) ending
    rw [← bytes]
    exact hstart

/-- The next frame is read from what has come. -/
theorem awaits_fetch (line : c.transport.readers.line = []) (solid : c.transport.source.Solid)
    (bytes : c.transport.incoming ++ later = bodies.flatMap Frame.encode) :
    c.fetch.Awaits bodies later := by
  refine .fetching rfl ?_ solid trivial fun ending _ ↦ ?_
  · simp [fetch, FrameCall.start, FrameCall.readLine, ReadCall.start, Lock.request, line]
  · have hstart := FrameCall.outcome_start .reading c.transport
      (c.transport.incoming ++ later) ending
    rw [← bytes]
    exact hstart

/-- After a body the next frame is read, or the task that reads answers or ends. -/
theorem awaits_receive (line : c.transport.readers.line = []) (solid : c.transport.source.Solid)
    (bytes : c.transport.incoming ++ later = bodies.flatMap Frame.encode) (body : String) :
    (c.receive body).1.Awaits bodies later := by
  unfold receive
  split
  · exact awaits_fetch line solid bytes
  · split
    · exact .ended rfl
    · exact awaits_fetch line solid bytes
  · exact .replying rfl line solid bytes
  · exact awaits_fetch line solid bytes

section Fetching

variable {call : FrameCall} {t : Transport} {ending : Ending}
  (line : c.transport.readers.line = [.reading]) (solid : c.transport.source.Solid)
  (whole : call.call.goal.IsWhole)
  (outcome : ∀ ending, c.transport.source.inflow.Allows later ending →
    call.outcome (c.transport.incoming ++ later) ending =
      Frame.readBehind "" (bodies.flatMap Frame.encode) ending)
  (allowed : c.transport.source.inflow.Allows later ending)

include line solid whole outcome allowed

/-- A read that goes on will give the same, whatever is still to come. -/
private theorem awaits_reads {call' : FrameCall}
    (step : call.step? .reading c.transport = some (.running call', t)) :
    Awaits { c with transport := t, reading := .fetching call' } bodies later := by
  have hending := (FrameCall.step?_foreseen allowed step).1
  have fits : ∀ e, c.transport.source.inflow.Allows later e →
      FrameCall.Fits .reading call (c.transport.foreseen later e) (.running call')
        (t.foreseen later e) := by
    intro e allowed
    obtain ⟨_, h⟩ | h := FrameCall.fits_of_step? line solid whole allowed step
    · cases h
    · exact h
  obtain ⟨readable, whole', -, -⟩ := fits ending allowed
  refine .fetching rfl readable.line_eq ?_ whole' ?_
  · exact (t.source.solid_foreseen later ending).mp readable.solid
  · intro e allowed
    have allowed : c.transport.source.inflow.Allows later e := allowed.congr hending.symm
    obtain ⟨-, -, -, hout⟩ := fits e allowed
    have hbefore := outcome e allowed
    simp only [Transport.incoming_foreseen, Transport.ending_foreseen] at hout
    exact hout.trans hbefore

/-- A read that ends gives a body that fits, ahead of those that are left, or it is the last one. -/
theorem received_of_step? {answer : FrameAnswer} (sized : ∀ b ∈ bodies, Frame.Sized b)
    (step : call.step? .reading c.transport = some (.finished answer, t)) :
    (∃ body rest, answer = .ok (some body) ∧ bodies = body :: rest ∧ Frame.Fits body ∧
      ({ c with transport := t }.receive body).1.Awaits rest later) ∨
    (∀ body, answer ≠ .ok (some body)) ∧
      { c with transport := t }.receiveFrame answer =
        ({ c with transport := t }.endReading, none) := by
  obtain ⟨-, h⟩ | ⟨readable, hanswer⟩ := FrameCall.fits_of_step? line solid whole allowed step
  · -- The stream is held no more.
    cases h
    exact .inr ⟨fun _ given ↦ (by cases given), rfl⟩
  simp only [Transport.incoming_foreseen, Transport.ending_foreseen] at hanswer
  rw [outcome ending allowed] at hanswer
  have solid' : t.source.Solid := (t.source.solid_foreseen later ending).mp readable.solid
  cases answer with
  | error f =>
    have hfatal := Frame.not_isProtocol_of_readBehind sized (congrArg Prod.fst hanswer)
    refine .inr ⟨fun _ given ↦ (by cases given), ?_⟩
    simp only [receiveFrame, hfatal, Bool.false_eq_true, if_false]
  | ok text? =>
    cases text? with
    | none => exact .inr ⟨fun _ given ↦ (by cases given), rfl⟩
    | some body =>
      obtain ⟨rest, rfl, fits, hrest⟩ := Frame.eq_cons_of_readBehind sized hanswer
      exact .inl ⟨body, rest, rfl, rfl, fits, awaits_receive readable.line_eq solid' hrest body⟩

end Fetching

/-- A step of an answer leaves the bodies that are left. -/
private theorem awaits_replies {call : WriteCall} (stage : c.reading = .replying call)
    (line : c.transport.readers.line = []) (solid : c.transport.source.Solid)
    (bytes : c.transport.incoming ++ later = bodies.flatMap Frame.encode)
    (step : c.stepReading? = some (d, notice)) : d.Awaits bodies later := by
  simp only [stepReading?, stage] at step
  split at step
  · cases step
    exact .ended rfl
  · split at step
    · cases step
    · next call' t hstep =>
      cases step
      obtain ⟨source, readers, -⟩ := WriteCall.step?_source hstep
      refine .replying rfl (readers ▸ line) (source ▸ solid) ?_
      simpa only [Transport.incoming, source] using bytes
    · next answer t hstep =>
      cases step
      obtain ⟨source, readers, -⟩ := WriteCall.step?_source hstep
      refine awaits_fetch (readers ▸ line) (source ▸ solid) ?_
      simpa only [Transport.incoming, source] using bytes

/-- The bodies that are left after a step of the task that reads are those that were left before,
without the one that it acts on. -/
theorem Awaits.step (awaits : c.Awaits bodies later) (sized : ∀ b ∈ bodies, Frame.Sized b)
    {ending : Ending} (allowed : c.transport.source.inflow.Allows later ending)
    (step : c.stepReading? = some (d, notice)) :
    ∃ rest, bodies = c.body?.toList ++ rest ∧ (∀ b ∈ c.body?, Frame.Fits b) ∧
      d.Awaits rest later := by
  have silent : c.body? = none → d.Awaits bodies later →
      ∃ rest, bodies = c.body?.toList ++ rest ∧ (∀ b ∈ c.body?, Frame.Fits b) ∧
        d.Awaits rest later := by
    intro hbody hawaits
    rw [hbody]
    exact ⟨bodies, rfl, by simp, hawaits⟩
  cases awaits with
  | ended stage =>
    simp only [stepReading?, stage] at step
    cases step
  | @replying call stage line solid bytes =>
    exact silent (by simp only [body?, stage]) (awaits_replies stage line solid bytes step)
  | @fetching call stage line solid whole outcome =>
    by_cases told : c.stopping = true
    · apply silent (by simp only [body?, stage, told, if_true])
      simp only [stepReading?, stage, told, if_true] at step
      cases step
      exact .ended rfl
    · simp only [stepReading?, stage, if_neg told] at step
      split at step
      · cases step
      · next call' t hstep =>
        cases step
        exact silent (by simp only [body?, stage, if_neg told, hstep])
          (awaits_reads line solid whole outcome allowed hstep)
      · next answer t hstep =>
        obtain ⟨body, rest, rfl, rfl, fits, received⟩ | ⟨noBody, last⟩ :=
          received_of_step? line solid whole outcome allowed sized hstep
        · have hbody : c.body? = some body := by simp only [body?, stage, if_neg told, hstep]
          rw [hbody]
          refine ⟨rest, rfl, by simpa using fits, ?_⟩
          simp only [receiveFrame, Option.some.injEq] at step
          simp only [stage, step] at received
          exact received
        · refine silent ?_ ?_
          · simp only [body?, stage, if_neg told, hstep]
            split
            · next given =>
              cases given
              exact absurd rfl (noBody _)
            · rfl
          · simp only [stage, Option.some.injEq] at step last
            rw [last] at step
            cases step
            exact .ended rfl

/-- Bytes that come are no longer to come. -/
theorem Awaits.arrive {piece : Bytes} (awaits : c.Awaits bodies (piece ++ later))
    (goesOn : c.transport.ending = .undecided) : (c.arrive piece).Awaits bodies later := by
  have incoming : (c.arrive piece).transport.incoming ++ later =
      c.transport.incoming ++ (piece ++ later) := by
    have hpush := c.transport.source.inflow.toBytes_push piece
    rw [← List.append_assoc]
    apply congrArg (· ++ later)
    change c.transport.source.buffer ++ (c.transport.source.inflow.push piece).toBytes =
      c.transport.source.buffer ++ c.transport.source.inflow.toBytes ++ piece
    rw [hpush, List.append_assoc]
  have solid_arrive : c.transport.source.Solid → (c.arrive piece).transport.source.Solid :=
    (c.transport.source.inflow.solid_push piece).mpr
  cases awaits with
  | fetching stage line solid whole outcome =>
    refine .fetching stage line (solid_arrive solid) whole fun ending allowed ↦ ?_
    rw [incoming]
    exact outcome ending ⟨allowed.decided, .inl goesOn⟩
  | replying stage line solid bytes =>
    exact .replying stage line (solid_arrive solid) (incoming.trans bytes)
  | ended stage => exact .ended stage

/-- Nothing more is to come of a stream that ends. -/
theorem Awaits.endInflow {ending : Ending} (awaits : c.Awaits bodies [])
    (goesOn : c.transport.ending = .undecided) : (c.endInflow ending).Awaits bodies [] := by
  cases awaits with
  | fetching stage line solid whole outcome =>
    refine .fetching stage line solid whole fun ending' allowed ↦ ?_
    exact outcome ending' ⟨allowed.decided, .inl goesOn⟩
  | replying stage line solid bytes => exact .replying stage line solid bytes
  | ended stage => exact .ended stage

/-- A task that reads frames and takes no step has nothing left to read. -/
theorem Awaits.eq_nil {call : FrameCall} (awaits : c.Awaits bodies [])
    (sized : ∀ b ∈ bodies, Frame.Sized b) (fetching : c.reading = .fetching call)
    (stuck : c.stepReading? = none) : bodies = [] := by
  cases awaits with
  | ended stage =>
    rw [fetching] at stage
    cases stage
  | replying stage =>
    rw [fetching] at stage
    cases stage
  | @fetching call' stage line solid whole outcome =>
    have hstuck : call'.step? .reading c.transport = none := by
      simp only [stepReading?, stage] at stuck
      split at stuck
      · cases stuck
      · split at stuck
        · assumption
        · cases stuck
        · cases stuck
    obtain ⟨hbytes, hending, hfails⟩ :=
      FrameCall.outcome_of_step?_eq_none line solid whole hstuck
    apply Frame.eq_nil_of_readBehind sized
    intro reason
    have hread := outcome (.failing reason) ⟨by simp, .inl hending⟩
    rw [hbytes, List.append_nil, hfails] at hread
    rw [← hread]

/-- As long as the server is listened to, only a body that is too great ends the task that
reads. -/
theorem Awaits.exists_not_fits (awaits : c.Awaits bodies later) (listens : c.Listens)
    (works : c.handlerFails = false) (step : c.stepReading? = some (d, notice))
    (ended : d.reading = .ended) :
    ∃ first rest, bodies = first :: rest ∧ ¬ Frame.Fits first := by
  obtain ⟨going, held, goesOn⟩ := listens
  have told : ¬ c.stopping = true := Bool.eq_false_iff.mp going
  cases awaits with
  | ended stage =>
    simp only [stepReading?, stage] at step
    cases step
  | @replying call stage line solid bytes =>
    simp only [stepReading?, stage, if_neg told] at step
    split at step
    · cases step
    · cases step
      cases ended
    · cases step
      cases ended
  | @fetching call stage line solid whole outcome =>
    simp only [stepReading?, stage, if_neg told] at step
    split at step
    · cases step
    · cases step
      cases ended
    · next answer t hstep =>
      have noText : ∀ body, answer ≠ .ok (some body) := by
        rintro body rfl
        simp only [receiveFrame, Option.some.injEq] at step
        obtain ⟨-, -, ⟨frame, -, hreading⟩ | ⟨-, hfetch⟩⟩ :=
          receive_eq { c with transport := t } works body
        · simp only [stage, step, ended] at hreading
          cases hreading
        · simp only [stage, step] at hfetch
          rw [hfetch] at ended
          cases ended
      refine Frame.exists_not_fits_of_readBehind noText fun reason ↦ ?_
      have allowed : c.transport.source.inflow.Allows later (.failing reason) :=
        ⟨by simp, .inl goesOn⟩
      obtain ⟨gone, _⟩ | ⟨_, hanswer⟩ := FrameCall.fits_of_step? line solid whole allowed hstep
      · rw [held] at gone
        cases gone
      · simp only [Transport.incoming_foreseen, Transport.ending_foreseen] at hanswer
        have hread := outcome (.failing reason) allowed
        rw [hanswer] at hread
        exact (congrArg Prod.fst hread).symm

/-- What is left to be read, and why the task that reads has ended if it has. -/
structure Follows (c : Connection) (bodies : List String) (later : Bytes) : Prop where
  awaits : c.Awaits bodies later
  great : c.Listens → c.reading = .ended →
    ∃ first rest, bodies = first :: rest ∧ ¬ Frame.Fits first

/-- A connection that is opened has everything before it. -/
theorem follows_ofTransport {t : Transport} (line : t.readers.line = []) (solid : t.source.Solid)
    (handlerFails : Bool) (bytes : t.incoming ++ later = bodies.flatMap Frame.encode) :
    (ofTransport t handlerFails).Follows bodies later where
  awaits := awaits_ofTransport line solid handlerFails bytes
  great _ ended := by cases ended

/-- After a step of the task that reads the bodies are left that were left before, without the one
that it acts on. -/
theorem Follows.step (follows : c.Follows bodies later) (sized : ∀ b ∈ bodies, Frame.Sized b)
    {ending : Ending} (allowed : c.transport.source.inflow.Allows later ending)
    (works : c.handlerFails = false) (step : c.stepReading? = some (d, notice)) :
    ∃ rest, bodies = c.body?.toList ++ rest ∧ (∀ b ∈ c.body?, Frame.Fits b) ∧
      d.Follows rest later := by
  obtain ⟨rest, hrest, fits, hawaits⟩ := follows.awaits.step sized allowed step
  refine ⟨rest, hrest, fits, hawaits, fun listens ended ↦ ?_⟩
  have listens := (keeps_of_stepReading? step).2.2 listens
  obtain ⟨first, others, hfirst, great⟩ :=
    follows.awaits.exists_not_fits listens works step ended
  -- A body that is acted on does not end the task.
  cases hbody : c.body? with
  | none =>
    rw [hbody] at hrest
    exact ⟨first, others, hrest.symm.trans hfirst, great⟩
  | some body =>
    rw [hbody, hfirst] at hrest
    cases hrest
    exact absurd (fits first hbody) great

/-- Bytes that come are no longer to come. -/
theorem Follows.arrive {piece : Bytes} (follows : c.Follows bodies (piece ++ later))
    (goesOn : c.transport.ending = .undecided) : (c.arrive piece).Follows bodies later where
  awaits := follows.awaits.arrive goesOn
  great listens := follows.great ⟨listens.going, listens.held, goesOn⟩

/-- Nothing more is to come of a stream that ends. -/
theorem Follows.endInflow {ending : Ending} (follows : c.Follows bodies [])
    (goesOn : c.transport.ending = .undecided) : (c.endInflow ending).Follows bodies [] where
  awaits := follows.awaits.endInflow goesOn
  great listens := follows.great ⟨listens.going, listens.held, goesOn⟩

/-! ### What does not concern the task that reads -/

/-- The task that reads, its stream and the handler are left alone; it may be told to stop, and its
stream may be let go. -/
structure Spares (c d : Connection) : Prop where
  reading : d.reading = c.reading
  handler : d.handlerFails = c.handlerFails
  source : d.transport.source = c.transport.source
  readers : d.transport.readers = c.transport.readers
  listens : d.Listens → c.Listens

/-- What stands in the way of the task that reads stays the same. -/
theorem Spares.of_eq (reading : d.reading = c.reading) (handler : d.handlerFails = c.handlerFails)
    (source : d.transport.source = c.transport.source)
    (readers : d.transport.readers = c.transport.readers) (stopping : d.stopping = c.stopping)
    (held : d.transport.hasSource = c.transport.hasSource) : Spares c d := by
  refine ⟨reading, handler, source, readers, fun listens ↦ ?_⟩
  have ending : d.transport.ending = c.transport.ending := congrArg (·.inflow.ending) source
  exact ⟨stopping ▸ listens.going, held ▸ listens.held, ending ▸ listens.goesOn⟩

theorem Spares.refl (c : Connection) : Spares c c := .of_eq rfl rfl rfl rfl rfl rfl

theorem Spares.trans {e : Connection} (first : Spares c d) (second : Spares d e) : Spares c e where
  reading := second.reading.trans first.reading
  handler := second.handler.trans first.handler
  source := second.source.trans first.source
  readers := second.readers.trans first.readers
  listens := fun listens ↦ first.listens (second.listens listens)

/-- What is left to be read stays the same. -/
theorem Follows.spared (follows : c.Follows bodies later) (spares : Spares c d) :
    d.Follows bodies later where
  awaits := follows.awaits.congr spares.reading spares.source spares.readers
  great listens ended := follows.great (spares.listens listens) (spares.reading ▸ ended)

/-- Closing a transport leaves the stream from the server as it is, and may let go of it. -/
private theorem source_close (t : Transport) :
    t.close.2.source = t.source ∧ t.close.2.readers = t.readers ∧
      (t.close.2.hasSource = true → t.hasSource = true) := by
  unfold Transport.close
  split
  · exact ⟨rfl, rfl, id⟩
  · simp only
    split <;> exact ⟨rfl, rfl, fun h ↦ (Bool.and_eq_true_iff.mp h).1⟩

/-- No operation touches the task that reads or its stream. -/
theorem Moves.spares {a : Agent} (moves : Moves a c d) : Spares c d := by
  induction moves with
  | refl => exact .refl c
  | takesId _ ih | registers _ _ ih | forgets _ _ ih | asks _ _ ih | givesUp _ ih =>
    exact ih.trans (.of_eq rfl rfl rfl rfl rfl rfl)
  | writes _ step ih =>
    obtain ⟨source, readers, held⟩ := WriteCall.step?_source step
    exact ih.trans (.of_eq rfl rfl source readers rfl held)
  | stops _ ih =>
    exact ih.trans ⟨rfl, rfl, rfl, rfl, fun listens ↦ Bool.noConfusion listens.going⟩
  | @closes d _ ih =>
    obtain ⟨source, readers, held⟩ := source_close d.transport
    have ending : d.transport.close.2.ending = d.transport.ending :=
      congrArg (·.inflow.ending) source
    exact ih.trans ⟨rfl, rfl, source, readers, fun listens ↦
      ⟨listens.going, held listens.held, ending ▸ listens.goesOn⟩⟩
  | drops _ ih =>
    exact ih.trans ⟨rfl, rfl, rfl, rfl, fun listens ↦ Bool.noConfusion listens.held⟩

end LanguageHub.Connection
