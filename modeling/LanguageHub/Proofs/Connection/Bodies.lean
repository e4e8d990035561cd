import LanguageHub.Proofs.Connection.Steps
import LanguageHub.Proofs.Frame.Bodies

/-!
# What the task that reads does with a body

The task that reads acts on the body of each frame that is understood: a notification goes to the
handler, a response to the table of waiting calls, and a request of the server is answered. A step
that acts on no body does none of this.
-/

namespace LanguageHub

/-! ### What a body says -/

namespace ServerMessage

/-- The notification that a body is, if it is one. -/
def notice? (body : String) : Option ServerNotice :=
  match decode body with
  | .ok (.notice n) => some n
  | _ => none

/-- The id of the response that a body is, and the outcome that it carries. -/
def response? (body : String) : Option (Int × Outcome) :=
  match decode body with
  | .ok (.response id outcome) => some (id, outcome.mapError RpcError.toFailure)
  | _ => none

/-- The id of the request of the server that a body is. -/
def requestId? (body : String) : Option Json :=
  match decode body with
  | .ok (.request id _) => some id
  | _ => none

/-- The frame with the answer to the request of the server that a body is. -/
def reply? (body : String) : Option Bytes :=
  (requestId? body).map fun id ↦ Frame.encode (encodeNullReply id)

end ServerMessage

/-- What a body does to the table of waiting calls: a response is offered to it. -/
def CallTable.offer (t : CallTable) (body : String) : CallTable :=
  match ServerMessage.response? body with
  | some (id, outcome) => (t.resolve id outcome).1
  | none => t

/-- A step of the read of a frame closes nothing and lets go of no stream. -/
theorem FrameCall.held_of_step? {a : Agent} {c : FrameCall} {t u : Transport}
    {p : Progress FrameCall FrameAnswer} (step : c.step? a t = some (p, u)) :
    u.closed = t.closed ∧ u.hasSource = t.hasSource ∧ u.hasSink = t.hasSink := by
  rw [eq_of_step? step]
  exact ⟨rfl, rfl, rfl⟩

namespace Connection

open ServerMessage

/-- The server is listened to: the task that reads was not told to stop, and its stream is held and
goes on. -/
structure Listens (c : Connection) : Prop where
  going : c.stopping = false
  held : c.transport.hasSource = true
  goesOn : c.transport.ending = .undecided

/-- The body that the next step of the task that reads acts on. -/
def body? (c : Connection) : Option String :=
  match c.reading with
  | .fetching call =>
    if c.stopping then none
    else
      match call.step? .reading c.transport with
      | some (.finished (.ok (some body)), _) => some body
      | _ => none
  | _ => none

variable {c d : Connection} {notice : Option ServerNotice} {body : String}

/-! ### What the steps do -/

/-- A step that acts on a body. -/
theorem stepReading?_of_body? (taken : c.body? = some body) :
    ∃ call t, c.reading = .fetching call ∧ c.stopping = false ∧
      call.step? .reading c.transport = some (.finished (.ok (some body)), t) ∧
      c.stepReading? = some ({ c with transport := t }.receive body) ∧
      c.readingShows = bodyShows body := by
  unfold body? at taken
  cases hr : c.reading with
  | ended | replying => simp [hr] at taken
  | fetching call =>
    simp only [hr] at taken
    split at taken
    · cases taken
    · next going =>
      split at taken
      · next b t step =>
        cases taken
        refine ⟨call, t, rfl, Bool.eq_false_iff.mpr going, step, ?_, ?_⟩
        · simp only [stepReading?, hr, if_neg going, step, receiveFrame]
        · simp only [readingShows, hr, if_neg going, step]
      · cases taken

/-- A step that acts on no body hands nothing to the handler, and it leaves the table of waiting
calls alone as long as the task that reads goes on. -/
theorem stepReading?_of_body?_eq_none (none_ : c.body? = none)
    (step : c.stepReading? = some (d, notice)) :
    notice = none ∧ (d.reading ≠ .ended → d.table = c.table) := by
  unfold body? at none_
  unfold stepReading? at step
  cases hr : c.reading with
  | ended =>
    rw [hr] at step
    cases step
  | replying call =>
    rw [hr] at step
    simp only at step
    split at step
    · cases step
      exact ⟨rfl, fun going ↦ absurd rfl going⟩
    · split at step
      · cases step
      · cases step
        exact ⟨rfl, fun _ ↦ rfl⟩
      · cases step
        exact ⟨rfl, fun _ ↦ rfl⟩
  | fetching call =>
    rw [hr] at step none_
    simp only at step none_
    split at step
    · cases step
      exact ⟨rfl, fun going ↦ absurd rfl going⟩
    · next going =>
      rw [if_neg going] at none_
      split at step
      · cases step
      · cases step
        exact ⟨rfl, fun _ ↦ rfl⟩
      · next answer t hstep =>
        simp only [Option.some.injEq] at step
        cases answer with
        | error f =>
          simp only [receiveFrame] at step
          split at step
          · cases step
            exact ⟨rfl, fun _ ↦ rfl⟩
          · cases step
            exact ⟨rfl, fun going ↦ absurd rfl going⟩
        | ok body? =>
          cases body? with
          | none =>
            cases step
            exact ⟨rfl, fun going ↦ absurd rfl going⟩
          | some body =>
            rw [hstep] at none_
            cases none_

/-- What acting on a body comes to: the handler receives the notification that it is, the table
of waiting calls is offered the response that it is, and the request that it is is answered. -/
theorem receive_eq (c : Connection) (works : c.handlerFails = false) (body : String) :
    (c.receive body).2 = notice? body ∧
      (c.receive body).1.table = c.table.offer body ∧
      ((∃ frame, reply? body = some frame ∧
          (c.receive body).1.reading = .replying (.queued frame)) ∨
        reply? body = none ∧
          (c.receive body).1 = { c with table := c.table.offer body }.fetch) := by
  unfold receive notice? CallTable.offer reply? requestId? response?
  cases decode body with
  | error f => exact ⟨rfl, rfl, .inr ⟨rfl, rfl⟩⟩
  | ok message =>
    cases message with
    | response id outcome => exact ⟨rfl, rfl, .inr ⟨rfl, rfl⟩⟩
    | request id method => exact ⟨rfl, rfl, .inl ⟨_, rfl, rfl⟩⟩
    | notice n =>
      have works : ¬ c.handlerFails = true := Bool.eq_false_iff.mp works
      refine ⟨?_, ?_, .inr ⟨rfl, ?_⟩⟩
      all_goals simp only [if_neg works]
      rfl

/-- The handler receives the notification that the body is, if the step acts on one. -/
theorem notice_of_stepReading? (works : c.handlerFails = false)
    (step : c.stepReading? = some (d, notice)) : notice = c.body?.bind notice? := by
  cases hbody : c.body? with
  | none =>
    obtain ⟨hnotice, -⟩ := stepReading?_of_body?_eq_none hbody step
    exact hnotice
  | some body =>
    obtain ⟨call, t, -, -, -, hreceive, -⟩ := stepReading?_of_body? hbody
    obtain ⟨hnotice, -⟩ := receive_eq { c with transport := t } works body
    rw [step, Option.some.injEq] at hreceive
    rw [← hreceive] at hnotice
    exact hnotice

/-- The handler stays as it is, the stream ends, or goes on, as it did, and the server is listened
to as it was. -/
theorem keeps_of_stepReading? (step : c.stepReading? = some (d, notice)) :
    d.handlerFails = c.handlerFails ∧ d.transport.ending = c.transport.ending ∧
      (d.Listens → c.Listens) := by
  have keeps : d.handlerFails = c.handlerFails ∧ d.stopping = c.stopping ∧
      d.transport.ending = c.transport.ending ∧
      d.transport.hasSource = c.transport.hasSource := by
    have taken := readingStep_of_stepReading? step
    generalize c.readingShows = shown at taken
    cases taken with
    | stops | givesUp => exact ⟨rfl, rfl, rfl, rfl⟩
    | reads _ hstep | resolves _ _ hstep | replies _ _ hstep | passes _ hstep | ends _ hstep =>
      have hending := FrameCall.ending_of_step? hstep
      obtain ⟨-, hsource, -⟩ := FrameCall.held_of_step? hstep
      exact ⟨rfl, rfl, hending, hsource⟩
    | writes _ hstep | replied _ hstep =>
      obtain ⟨hsource, -, hheld⟩ := WriteCall.step?_source hstep
      exact ⟨rfl, rfl, congrArg (·.inflow.ending) hsource, hheld⟩
  obtain ⟨hhandler, hstopping, hending, hheld⟩ := keeps
  exact ⟨hhandler, hending, fun listens ↦ ⟨hstopping ▸ listens.going, hheld ▸ listens.held,
    hending ▸ listens.goesOn⟩⟩

end Connection

end LanguageHub
