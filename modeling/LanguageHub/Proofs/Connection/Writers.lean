import LanguageHub.Proofs.CallTable
import LanguageHub.Proofs.Connection.Bodies
import LanguageHub.Proofs.Transport.Sequences

/-!
# The writers of a connection

What the task that reads, calls, notifications and closings do to the stream to the server, told
as steps of writers. Only the task that reads gives a write up, when it is told to stop, and only a
closing lets go of the stream.
-/

namespace LanguageHub

/-- Who stands not in line leaves it as it is. -/
theorem Lock.leave_of_notMem {l : Lock} {a : Agent} (h : a ∉ l.line) : l.leave a = l := by
  obtain ⟨line⟩ := l
  simp only [leave, mk.injEq, List.filter_eq_self, decide_eq_true_eq]
  exact fun b hb hba ↦ h (hba ▸ hb)

variable {ws : Writers} {a : Agent} {now : Nat} {c d : Connection} {disturbed : Prop}

/-- The write that a call is at. -/
def Call.writing? (k : Call) : Option WriteCall :=
  match k.phase with
  | .sending call => some call
  | .waiting _ => none

namespace WriteCall

/-- What a step of an operation shows of the write that it is at. -/
def showsOf (a : Agent) (call? : Option WriteCall) (t : Transport) : List WireEvent :=
  match call? with
  | some call => call.shows a t
  | none => []

end WriteCall

/-- A call that is refused at once has failed, because the connection is closed. -/
theorem Call.spec_of_refused {request : Request} {limit : Option Duration} {outcome : Outcome}
    (start : Call.start a request limit c = (.finished outcome, d)) :
    c.table.closed = true ∧ ∃ f, outcome = .error f := by
  simp only [Call.start] at start
  split at start
  · next f hregister =>
    cases start
    refine ⟨?_, f, rfl⟩
    by_contra hopen
    obtain ⟨_, _, h⟩ := CallTable.register_of_open (Bool.eq_false_iff.mpr hopen) c.nextId
    rw [h] at hregister
    cases hregister
  · cases start

namespace Connection

/-- What the start of a call shows. It shows nothing if the call is refused at once. -/
def callShows (n : Nat) (request : Request) (c : Connection) : History :=
  if c.table.closed then []
  else [.called n c.nextId request,
    .wire (.asked (.operation n) (Frame.encode (request.encode c.nextId)))]

/-- What the start of a notification shows. -/
def noticeShows (n : Nat) (notice : Notice) : History :=
  [.notified n notice, .wire (.asked (.operation n) (Frame.encode notice.encode))]

/-! ### The task that reads -/

/-- A step of the task that reads, told as steps of writers. -/
theorem ReadingStep.toWrites {shown : History} {notice : Option ServerNotice}
    (step : c.ReadingStep shown d notice) (replying : ws .reading = c.replying?)
    (inLine : .reading ∈ c.transport.writers.line ↔ ws .reading ≠ none) :
    Writes (c.stopping = true) c.transport ws shown.events d.transport
      (Function.update ws .reading d.replying?) := by
  have silent {call : FrameCall} (fetching : c.reading = .fetching call) :
      ws .reading = none := by
    rw [replying, replying?, fetching]
  have writing {call : WriteCall} (hcall : c.reading = .replying call) :
      ws .reading = some call := by
    rw [replying, replying?, hcall]
  -- Reading a frame leaves the stream to the server alone, and so does an end between two frames.
  have reads {call : FrameCall} {p : Progress FrameCall FrameAnswer} {t : Transport}
      (fetching : c.reading = .fetching call)
      (hcall : call.step? .reading c.transport = some (p, t)) :
      Writes (c.stopping = true) c.transport ws [] t (Function.update ws .reading none) := by
    obtain ⟨line, sink⟩ := FrameCall.step?_sink hcall
    obtain ⟨closed, -, held⟩ := FrameCall.held_of_step? hcall
    rw [← silent fetching, Function.update_eq_self]
    exact .quiet line (congrArg _ sink) (congrArg Outflow.Dead sink).mpr closed held
  have leaves {call : FrameCall} {e : Connection} (fetching : c.reading = .fetching call)
      (line : e.transport.writers = c.transport.writers) :
      e.endReading.transport.writers = e.transport.writers := by
    rw [← line] at inLine
    exact Lock.leave_of_notMem fun h ↦ inLine.mp h (silent fetching)
  cases step with
  | stops fetching told =>
    rw [show c.endReading.replying? = none from rfl, ← silent fetching, Function.update_eq_self]
    exact .quiet (leaves fetching rfl) rfl id rfl rfl
  | givesUp hreplying told =>
    rw [History.events_map_wire]
    have gives := Writes.single (.giveUp (t := c.transport) (writing hreplying)) (.inl told)
    exact gives.thenQuiet rfl rfl id rfl rfl
  | reads fetching hcall => exact reads fetching hcall
  | resolves fetching _ hcall _ | passes fetching hcall _ =>
    exact (reads fetching hcall).thenQuiet rfl rfl id rfl rfl
  | @replies _ _ _ _ id fetching _ hcall _ =>
    exact (reads fetching hcall).goOn
      (.ask .reading (Frame.encode (encodeNullReply id)) (Function.update_self ..))
  | ends fetching hcall _ =>
    obtain ⟨line, sink⟩ := FrameCall.step?_sink hcall
    exact (reads fetching hcall).thenQuiet (leaves fetching line) rfl id rfl rfl
  | writes hreplying hcall =>
    rw [History.events_map_wire]
    exact .of_step? (writing hreplying) hcall
  | replied hreplying hcall =>
    rw [History.events_map_wire]
    exact (Writes.of_step? (writing hreplying) hcall).thenQuiet rfl rfl id rfl rfl

/-! ### Calls and notifications -/

/-- A call that begins joins the line of writers, unless it is refused at once. -/
theorem writes_startCall {n : Nat} {request : Request} {limit : Option Duration}
    {p : Progress Call Outcome} (idle : ws (.operation n) = none)
    (start : Call.start (.operation n) request limit c = (p, d)) :
    Writes disturbed c.transport ws (History.events (c.callShows n request)) d.transport
      (Function.update ws (.operation n) (p.writing? Call.writing?)) := by
  simp only [Call.start] at start
  unfold callShows
  cases hc : c.table.closed with
  | true =>
    rw [CallTable.register_of_closed hc] at start
    cases start
    rw [Progress.writing?, ← idle, Function.update_eq_self]
    exact .refl
  | false =>
    obtain ⟨table, ticket, hregister⟩ := CallTable.register_of_open hc c.nextId
    rw [hregister] at start
    cases start
    exact .ask (.operation n) _ idle

/-- A step of a call. -/
theorem writes_stepCall? {k : Call} {p : Progress Call Outcome} (writing : ws a = k.writing?)
    (step : k.step? a now c = some (p, d)) :
    Writes disturbed c.transport ws (WriteCall.showsOf a k.writing? c.transport) d.transport
      (Function.update ws a (p.writing? Call.writing?)) := by
  cases Call.takes_of_step? step with
  | sends sending hcall | sent sending hcall | unsent sending hcall =>
    rw [Call.writing?, sending] at writing ⊢
    exact .of_step? writing hcall
  | answered waiting | expires waiting | lost waiting =>
    rw [Call.writing?, waiting] at writing ⊢
    rw [Function.update_eq_self_iff.mpr writing.symm]
    exact .refl

/-- A notification that begins joins the line of writers. -/
theorem writes_startNotice (n : Nat) (notice : Notice) (c : Connection)
    (idle : ws (.operation n) = none) :
    Writes disturbed c.transport ws (History.events (noticeShows n notice))
      (c.startNotice (.operation n) notice).2.transport
      (Function.update ws (.operation n) (some (c.startNotice (.operation n) notice).1)) :=
  .ask (.operation n) _ idle

/-- A step of a notification. -/
theorem writes_stepNotice? {call : WriteCall} {p : Progress WriteCall (Except Failure Unit)}
    (writing : ws a = some call) (step : c.stepNotice? a call = some (p, d)) :
    Writes disturbed c.transport ws (call.shows a c.transport) d.transport
      (Function.update ws a (p.writing? some)) := by
  simp only [stepNotice?, Option.map_eq_some_iff, Prod.exists] at step
  obtain ⟨q, t, hcall, he⟩ := step
  cases he
  exact .of_step? writing hcall

/-! ### Closing -/

/-- Closing a transport leaves the line of writers and what was written. -/
theorem close_spec (t : Transport) :
    t.close.2.writers = t.writers ∧ t.close.2.sink.written = t.sink.written ∧
      (t.sink.Dead → t.close.2.sink.Dead) := by
  unfold Transport.close
  split
  · exact ⟨rfl, rfl, id⟩
  · simp only
    split <;> exact ⟨rfl, rfl, id⟩

/-- The start of a closing leaves the streams alone. -/
theorem transport_startClosing (c : Connection) :
    (Closing.start c).2.transport = c.transport := by
  unfold Closing.start
  split <;> rfl

/-- A step of a closing may let go of the stream. -/
theorem writes_stepClosing? {k : Closing} {p : Progress Closing (Except Failure Unit)}
    (step : k.step? c = some (p, d)) : Writes True c.transport ws [] d.transport ws := by
  cases k with
  | awaitingReader =>
    simp only [Closing.step?] at step
    split at step
    · cases step
      exact .refl
    · cases step
  | ready =>
    cases step
    obtain ⟨line, written, dead⟩ := close_spec c.transport
    exact .single (.quiet line written dead) (.inl trivial)

end Connection

end LanguageHub
