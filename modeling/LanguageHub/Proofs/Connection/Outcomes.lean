import LanguageHub.Proofs.CallTable
import LanguageHub.Proofs.Connection.Bodies
import LanguageHub.Proofs.Connection.Moves
import LanguageHub.Proofs.Transport.Wire

/-!
# What becomes of a call

A call that waits is in the table under its id, and no response to it was acted on. Once something
has become of it, this is what the first response to it carries, unless the transport has failed
or the call was forgotten. Operations and the task that reads keep it so.

A call fails because of the transport, for want of an answer or by an answer that is an error, and
a notification fails because of the transport. So neither fails as the start of a client does,
however the connection came to be as it is.
-/

namespace LanguageHub

/-! ### The first response to a call -/

namespace ServerMessage

/-- The outcome that a body carries, if it is a response to the id. -/
def answerTo? (id : Int) (body : String) : Option Outcome :=
  (response? body).bind fun r ↦ if r.1 = id then some r.2 else none

/-- The outcome that the first response to the id carries. -/
def firstAnswer? (id : Int) (bodies : List String) : Option Outcome :=
  bodies.findSome? (answerTo? id)

theorem firstAnswer?_append (id : Int) (bodies more : List String) :
    firstAnswer? id (bodies ++ more) = (firstAnswer? id bodies).or (firstAnswer? id more) :=
  List.findSome?_append

/-- A response that is an error is one of the server. -/
theorem exists_rpc_of_response? {id : Int} {body : String} {f : Failure}
    (response : response? body = some (id, .error f)) : ∃ code message, f = .rpc code message := by
  unfold response? at response
  split at response
  · next outcome _ =>
    cases outcome with
    | ok v => cases response
    | error e =>
      cases response
      exact ⟨_, _, rfl⟩
  · cases response

/-- The first response that is an error is one of the server. -/
theorem exists_rpc_of_firstAnswer? {id : Int} {bodies : List String} {f : Failure}
    (answered : firstAnswer? id bodies = some (.error f)) :
    ∃ code message, f = .rpc code message := by
  obtain ⟨body, -, found⟩ := List.exists_of_findSome?_eq_some answered
  obtain ⟨⟨i, outcome⟩, response, same⟩ := Option.bind_eq_some_iff.mp found
  obtain ⟨-, same⟩ := Option.ite_none_right_eq_some.mp same
  cases Option.some.inj same
  exact exists_rpc_of_response? response

end ServerMessage

/-! ### Tickets -/

namespace CallTable

/-- What has become of the ticket of the call under an id agrees with the first answer to the call,
if one was received. -/
structure Agrees (t : CallTable) (id : Int) (ticket : Nat) (answer? : Option Outcome) : Prop where
  registered : t.fate? ticket ≠ none
  waiting : t.fate? ticket = some .waiting → (id, ticket) ∈ t.pending ∧ answer? = none
  decided : ∀ outcome, t.fate? ticket = some (.decided outcome) →
    answer? = some outcome ∨ ∃ reason, outcome = .error (.transport reason)

namespace Agrees

variable {t u : CallTable} {id : Int} {ticket : Nat} {answer? : Option Outcome}

/-- The call under some id is forgotten. -/
theorem remove (agrees : t.Agrees id ticket answer?) (sound : t.Sound) (other : Int) :
    (t.remove other).1.Agrees id ticket answer? := by
  by_cases own : (other, ticket) ∈ t.pending
  · have fate : (t.remove other).1.fate? ticket = some .forgotten := sound.fate?_take own _
    constructor <;> simp [fate]
  · have fate : (t.remove other).1.fate? ticket = t.fate? ticket :=
      sound.fate?_take_other _ own
    refine ⟨fate ▸ agrees.registered, fun waits ↦ ?_, fate ▸ agrees.decided⟩
    rw [fate] at waits
    obtain ⟨entered, unanswered⟩ := agrees.waiting waits
    refine ⟨(mem_pending_take t other .forgotten _).mpr ⟨entered, ?_⟩, unanswered⟩
    rintro rfl
    exact own entered

/-- The call under some id receives an answer. -/
theorem resolve (agrees : t.Agrees id ticket answer?) (sound : t.Sound) (other : Int)
    (outcome : Outcome) :
    (t.resolve other outcome).1.Agrees id ticket
      (answer?.or (if other = id then some outcome else none)) := by
  by_cases own : (other, ticket) ∈ t.pending
  · have fate : (t.resolve other outcome).1.fate? ticket = some (.decided outcome) :=
      sound.fate?_take own _
    obtain ⟨entered, unanswered⟩ := agrees.waiting (sound.waiting _ own)
    obtain rfl : other = id :=
      congrArg (·.1) (List.inj_on_of_nodup_map sound.tickets_nodup own entered rfl)
    constructor <;> simp [fate, unanswered]
  · have fate : (t.resolve other outcome).1.fate? ticket = t.fate? ticket :=
      sound.fate?_take_other _ own
    refine ⟨fate ▸ agrees.registered, fun waits ↦ ?_, fun o decided ↦ ?_⟩
    · rw [fate] at waits
      obtain ⟨entered, unanswered⟩ := agrees.waiting waits
      have different : other ≠ id := by
        rintro rfl
        exact own entered
      exact ⟨(mem_pending_take t other _ _).mpr ⟨entered, different.symm⟩,
        by rw [unanswered, if_neg different, Option.or_none]⟩
    · rw [fate] at decided
      exact (agrees.decided o decided).imp_left fun answered ↦ by rw [answered, Option.some_or]

/-- Another call is registered. -/
theorem register (agrees : t.Agrees id ticket answer?) (sound : t.Sound) {other : Int} {k : Nat}
    (registered : t.register other = .ok (u, k)) : u.Agrees id ticket answer? := by
  have removed := agrees.remove sound other
  unfold CallTable.register at registered
  split at registered
  · cases registered
  · cases registered
    obtain ⟨fate, found⟩ := Option.ne_none_iff_exists'.mp removed.registered
    have kept := fate?_append found [.waiting]
      ((t.remove other).1.pending ++ [(other, (t.remove other).1.tickets.length)])
    refine ⟨by simp [kept], fun waits ↦ ?_, fun o decided ↦ ?_⟩
    · rw [kept, ← found] at waits
      exact (removed.waiting waits).imp_left (List.mem_append_left _)
    · rw [kept, ← found] at decided
      exact removed.decided o decided

/-- Every call fails. -/
theorem failAll (agrees : t.Agrees id ticket answer?) (reason : String) :
    (t.failAll reason).Agrees id ticket answer? := by
  have fate := t.fate?_failAll reason ticket
  split at fate
  · obtain ⟨old, found⟩ := Option.ne_none_iff_exists'.mp agrees.registered
    rw [found, Option.map_some] at fate
    constructor <;> simp [fate]
  · next absent =>
    refine ⟨fate ▸ agrees.registered, fun waits ↦ ?_, fate ▸ agrees.decided⟩
    exact absurd (List.mem_map_of_mem (agrees.waiting (fate ▸ waits)).1) absent

/-- A call that was just registered waits, and it has not been answered. -/
theorem of_register (registered : t.register id = .ok (u, ticket)) : u.Agrees id ticket none := by
  unfold CallTable.register at registered
  split at registered
  · cases registered
  · cases registered
    constructor <;> simp [fate?]

end Agrees

end CallTable

/-! ### Connections -/

namespace Connection

open ServerMessage

variable {a : Agent} {c d : Connection} {id : Int} {ticket : Nat} {answer? : Option Outcome}

/-- No operation answers a call. -/
theorem Moves.agrees (moves : Moves a c d) (tidy : c.table.Tidy)
    (agrees : c.table.Agrees id ticket answer?) : d.table.Agrees id ticket answer? := by
  induction moves with
  | refl => exact agrees
  | takesId _ ih => exact ih
  | registers before registered ih =>
    exact ih.register (before.onward.table.tidy tidy).toSound registered
  | forgets before other ih => exact ih.remove (before.onward.table.tidy tidy).toSound other
  | asks _ _ ih => exact ih
  | writes _ _ ih => exact ih
  | givesUp _ ih => exact ih
  | stops _ ih => exact ih
  | closes _ ih => exact ih.failAll "connection closed"
  | drops _ ih => exact ih

/-- The task that reads offers a response that it acts on to the table of calls. If it acts on none,
then it leaves the table alone, or it ends and every call fails. -/
theorem table_of_stepReading? {notice : Option ServerNotice}
    (step : c.stepReading? = some (d, notice)) :
    (∃ id outcome, c.body?.bind response? = some (id, outcome) ∧
      d.table = (c.table.resolve id outcome).1) ∨
    c.body?.bind response? = none ∧
      (d.table = c.table ∨ ∃ reason, d.table = c.table.failAll reason) := by
  cases taken : c.body? with
  | some body =>
    obtain ⟨call, t, -, -, -, received, -⟩ := stepReading?_of_body? taken
    rw [step, Option.some.injEq] at received
    unfold receive at received
    rw [Option.bind_some, response?]
    split at received
    · next id outcome decoded =>
      cases received
      exact .inl ⟨id, _, by rw [decoded], rfl⟩
    · next n decoded =>
      rw [decoded]
      split at received
      · cases received
        exact .inr ⟨rfl, .inr ⟨_, rfl⟩⟩
      · cases received
        exact .inr ⟨rfl, .inl rfl⟩
    · next decoded =>
      cases received
      rw [decoded]
      exact .inr ⟨rfl, .inl rfl⟩
    · next decoded =>
      cases received
      rw [decoded]
      exact .inr ⟨rfl, .inl rfl⟩
  | none =>
    refine .inr ⟨rfl, ?_⟩
    have taken' := readingStep_of_stepReading? step
    generalize c.readingShows = shown at taken'
    cases taken' with
    | stops | givesUp | ends => exact .inr ⟨_, rfl⟩
    | reads | replies | passes | writes | replied => exact .inl rfl
    | resolves fetching going hstep =>
      simp [body?, fetching, going, hstep] at taken

/-- The task that reads answers a call with the response that it acts on. -/
theorem agrees_of_stepReading? {notice : Option ServerNotice} (tidy : c.table.Tidy)
    (step : c.stepReading? = some (d, notice)) (agrees : c.table.Agrees id ticket answer?) :
    d.table.Agrees id ticket (answer?.or (c.body?.bind (answerTo? id))) := by
  have same : c.body?.bind (answerTo? id) =
      (c.body?.bind response?).bind fun r ↦ if r.1 = id then some r.2 else none :=
    (Option.bind_assoc ..).symm
  obtain ⟨other, outcome, acted, table⟩ | ⟨acted, table⟩ := table_of_stepReading? step
  · rw [same, acted, table]
    exact agrees.resolve tidy.toSound other outcome
  · rw [same, acted, Option.bind_none, Option.or_none]
    obtain table | ⟨reason, table⟩ := table
    · rw [table]
      exact agrees
    · rw [table]
      exact agrees.failAll reason

/-- A call that was just begun has not been answered. -/
theorem agrees_startCall {request : Request} {limit : Option Duration} {k : Call}
    (start : Call.start a request limit c = (.running k, d)) :
    d.table.Agrees k.id k.ticket none ∧ k.limit = limit := by
  simp only [Call.start] at start
  split at start
  · cases start
  · next registered =>
    cases start
    exact ⟨.of_register registered, rfl⟩

end Connection

/-! ## How calls and notifications fail -/

/-- Whether this is a failure of the start of a client. -/
def Failure.ofStart : Failure → Bool
  | launch .. | handshake _ | unknownLanguage _ => true
  | transport _ | protocol _ | unsupportedMethod _ | rpc .. | timeout _ | io _ => false

/-! ### Tables of calls -/

namespace CallTable

/-- No outcome of a call is a failure of the start of a client. -/
def Plain (t : CallTable) : Prop :=
  ∀ k f, t.fate? k = some (.decided (.error f)) → f.ofStart = false

variable {t u : CallTable} {id : Int}

theorem Plain.empty : Plain {} := fun k f decided ↦ by simp [fate?] at decided

/-- A call is taken out with a fate that is no such failure. -/
theorem Plain.take (plain : t.Plain) (id : Int) {fate : Ticket}
    (allowed : ∀ f, fate = .decided (.error f) → f.ofStart = false) :
    (t.take id fate).1.Plain := by
  intro k f decided
  simp only [CallTable.take] at decided
  split at decided
  · exact plain k f decided
  · next ticket _ =>
    have decided : (t.settle ticket fate).fate? k = some (.decided (.error f)) := decided
    rw [fate?_settle] at decided
    split at decided
    · obtain ⟨_, -, same⟩ := Option.map_eq_some_iff.mp decided
      exact allowed f same
    · exact plain k f decided

/-- A call is registered. -/
theorem Plain.register (plain : t.Plain) {ticket : Nat}
    (registered : t.register id = .ok (u, ticket)) : u.Plain := by
  unfold CallTable.register at registered
  split at registered
  · cases registered
  · cases registered
    have removed : (t.remove id).1.Plain := plain.take id fun f h ↦ by cases h
    intro k f decided
    simp only [fate?, List.getElem?_append] at decided
    split at decided
    · exact removed k f decided
    · rw [List.getElem?_singleton] at decided
      split at decided <;> cases decided

/-- Every call has ended. -/
theorem Plain.failAll (plain : t.Plain) (reason : String) : (t.failAll reason).Plain := by
  intro k f decided
  rw [fate?_failAll] at decided
  split at decided
  · obtain ⟨_, -, same⟩ := Option.map_eq_some_iff.mp decided
    cases same
    rfl
  · exact plain k f decided

end CallTable

/-! ### Connections -/

namespace Connection

variable {a : Agent} {now : Nat} {c d : Connection}

/-- No operation has an outcome recorded. -/
theorem Moves.plain (moves : Moves a c d) (plain : c.table.Plain) : d.table.Plain := by
  induction moves with
  | refl => exact plain
  | takesId _ ih => exact ih
  | registers _ registered ih => exact ih.register registered
  | forgets _ id ih => exact ih.take id fun f h ↦ by cases h
  | asks _ _ ih => exact ih
  | writes _ _ ih => exact ih
  | givesUp _ ih => exact ih
  | stops _ ih => exact ih
  | closes _ ih => exact ih.failAll "connection closed"
  | drops _ ih => exact ih

/-- What an answer is recorded as is no failure of the start of a client. -/
theorem ReadingStep.plain {shown : History} {notice : Option ServerNotice}
    (step : c.ReadingStep shown d notice) (plain : c.table.Plain) : d.table.Plain := by
  cases step with
  | stops | givesUp | ends => exact plain.failAll _
  | reads | replies | passes | writes | replied => exact plain
  | @resolves _ _ _ id outcome =>
    refine plain.take id fun f h ↦ ?_
    cases outcome with
    | ok v => cases h
    | error e =>
      cases h
      rfl

/-- A call that ends when it begins has found the table closed. -/
theorem transport_of_startCall {request : Request} {limit : Option Duration} {outcome : Outcome}
    (start : Call.start a request limit c = (.finished outcome, d)) :
    ∃ reason, outcome = .error (.transport reason) := by
  unfold Call.start at start
  simp only at start
  split at start
  · next registered =>
    cases start
    unfold CallTable.register at registered
    split at registered <;> cases registered
    exact ⟨_, rfl⟩
  · cases start

/-- A call ends with what its ticket was decided with, because of the transport, or when its time is
over. -/
theorem cases_of_stepCall? {k : Call} {outcome : Outcome}
    (step : k.step? a now c = some (.finished outcome, d)) :
    c.table.fate? k.ticket = some (.decided outcome) ∨
    (∃ reason, outcome = .error (.transport reason)) ∨
    ∃ limit, k.limit = some limit ∧ outcome = .error (.timeout limit) := by
  generalize hp : Progress.finished outcome = p at step
  cases Call.takes_of_step? step with
  | sends | sent => cases hp
  | unsent | lost =>
    cases hp
    exact .inr (.inl ⟨_, rfl⟩)
  | expires _ limited =>
    cases hp
    exact .inr (.inr ⟨_, limited, rfl⟩)
  | answered _ fate =>
    cases hp
    exact .inl fate

/-- A call does not fail as the start of a client does. -/
theorem ofStart_of_stepCall? {k : Call} {f : Failure} (plain : c.table.Plain)
    (step : k.step? a now c = some (.finished (.error f), d)) : f.ofStart = false := by
  obtain fate | ⟨reason, same⟩ | ⟨limit, -, same⟩ := cases_of_stepCall? step
  · exact plain k.ticket f fate
  · cases same
    rfl
  · cases same
    rfl

/-- A notification fails because of the transport. -/
theorem transport_of_stepNotice? {call : WriteCall} {f : Failure}
    (step : c.stepNotice? a call = some (.finished (.error f), d)) :
    ∃ reason, f = .transport reason := by
  simp only [stepNotice?, Option.map_eq_some_iff, Prod.exists, Prod.mk.injEq] at step
  obtain ⟨_, _, hcall, rfl, -⟩ := step
  exact WriteCall.transport_of_step? hcall

end Connection

end LanguageHub
