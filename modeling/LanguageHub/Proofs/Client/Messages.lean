import LanguageHub.Proofs.Client.Outgoing
import LanguageHub.Proofs.Connection.Origins
import LanguageHub.Proofs.Frame.Splitting

/-!
# The messages of a client

The requests and notifications that the operations of a client begin are what they want to write,
in order; everything else that somebody wants to write is an answer to a request of the server.
What has gone out is the dialogue of the client. Who has written its frame has nothing of the others
missing before it, as long as nobody has begun to end the client.
-/

namespace LanguageHub

/-- A message that an operation of a client sends. -/
inductive ClientMessage where
  | request (id : Int) (request : Request)
  | notice (notice : Notice)

namespace ClientMessage

/-- The text of a message. -/
def encode : ClientMessage → String
  | request id r => r.encode id
  | notice n => n.encode

/-- The frame of a message. -/
def frame (m : ClientMessage) : Bytes := Frame.encode m.encode

/-- The first message: a client introduces itself. -/
def greeting (id : Int) (rootUri : String) : ClientMessage :=
  .request id (Connecting.greeting 0 rootUri)

/-- A message about a document, or for completions in one. -/
def IsOperation : ClientMessage → Prop
  | request _ (.completion _ _) => True
  | notice (.didOpen ..) | notice (.didChange ..) | notice (.didSave ..) => True
  | _ => False

end ClientMessage

/-- The frame of an order of an operation. -/
def operationFrame? : Agent × Bytes → Option Bytes
  | (.operation _, frame) => some frame
  | (.reading, _) => none

namespace Occurrence

/-- The message that an operation has begun. -/
def message? : Occurrence → Option ClientMessage
  | called _ id request => some (.request id request)
  | notified _ notice => some (.notice notice)
  | _ => none

/-- What somebody wants to write for a reason that the history shows. -/
def order? : Occurrence → Option (Agent × Bytes)
  | called n id request => some (.operation n, Frame.encode (request.encode id))
  | notified n notice => some (.operation n, Frame.encode notice.encode)
  | requested id => some (.reading, Frame.encode (encodeNullReply id))
  | _ => none

/-- Whatever somebody wants to write is the frame of a text. -/
theorem exists_body_of_order? {x : Occurrence} {order : Agent × Bytes} (h : x.order? = some order) :
    ∃ body, order.2 = Frame.encode body := by
  cases x <;> cases h <;> exact ⟨_, rfl⟩

end Occurrence

namespace History

/-- The messages that operations have begun, in order. -/
def messages (h : History) : List ClientMessage := h.filterMap Occurrence.message?

/-- The frames of operations that were begun, in order. -/
def begun (h : History) : List Bytes := (h.wire.map (·.order)).filterMap operationFrame?

/-- The frames of operations that have gone out completely, in order. -/
def finished (h : History) : List Bytes :=
  (WireEvent.completed h.events).filterMap operationFrame?

/-- Everything that somebody wants to write has its reason, and the other way round. -/
def Balanced (h : History) : Prop := WireEvent.orders h.events = h.filterMap Occurrence.order?

variable {h more : History}

/-- The frames of operations that have gone out are the complete frames of all but the task that
reads. -/
theorem finished_eq (h : History) :
    h.finished =
      (h.wire.filter fun x ↦ x.sent = x.frame ∧ x.author ≠ .reading).map (·.frame) := by
  rw [finished, WireEvent.completed, wire]
  induction WireEvent.wire h.events with
  | nil => rfl
  | cons x xs ih =>
    obtain ⟨author, frame, sent, givenUp⟩ := x
    by_cases hall : sent = frame
    · cases author <;> simpa [hall, operationFrame?, Shipment.order, List.filterMap_cons] using ih
    · simpa [hall] using ih

@[simp]
theorem messages_append (h more : History) : messages (h ++ more) = messages h ++ messages more :=
  List.filterMap_append

@[simp]
theorem messages_map_wire (log : List WireEvent) : messages (log.map .wire) = [] := by
  rw [messages, List.filterMap_map]
  exact List.filterMap_eq_nil_iff.mpr fun _ _ ↦ rfl

theorem Balanced.append (first : h.Balanced) (second : more.Balanced) : (h ++ more).Balanced := by
  unfold Balanced at first second ⊢
  rw [events_append, WireEvent.orders_append, first, second, List.filterMap_append]

/-- What writers do beside joining the line has no reason. -/
theorem balanced_map_wire {log : List WireEvent} (others : ∀ e ∈ log, e.order? = none) :
    Balanced (log.map .wire) := by
  rw [Balanced, events_map_wire, List.filterMap_map, WireEvent.orders,
    List.filterMap_eq_nil_iff.mpr others]
  exact (List.filterMap_eq_nil_iff.mpr fun _ _ ↦ rfl).symm

/-- The operations want to write their messages. -/
theorem Balanced.operations (balanced : h.Balanced) :
    (WireEvent.orders h.events).filterMap operationFrame? = h.messages.map (·.frame) := by
  rw [balanced, messages, List.map_filterMap, List.filterMap_filterMap]
  refine List.filterMap_congr fun x _ ↦ ?_
  cases x <;> rfl

/-- The task that reads wants to write answers to the requests of the server. -/
theorem Balanced.exists_reply (balanced : h.Balanced) {frame : Bytes}
    (mem : (.reading, frame) ∈ WireEvent.orders h.events) :
    ∃ id, .requested id ∈ h ∧ frame = Frame.encode (encodeNullReply id) := by
  rw [balanced, List.mem_filterMap] at mem
  obtain ⟨x, hx, horder⟩ := mem
  cases x with
  | requested id =>
    cases horder
    exact ⟨id, hx, rfl⟩
  | _ => cases horder

end History

/-! ### What the steps show -/

/-- What a step of a write shows has no reason. -/
theorem WriteCall.order?_showsOf {a : Agent} {call? : Option WriteCall} {t : Transport} :
    ∀ e ∈ WriteCall.showsOf a call? t, e.order? = none := by
  intro e he
  cases call? with
  | none => cases he
  | some call => obtain ⟨_, rfl⟩ | ⟨_, rfl⟩ := WriteCall.mem_shows he <;> rfl

/-- The start of a call has a reason if it joins the line of writers. -/
theorem Connection.balanced_callShows (n : Nat) (request : Request) (c : Connection) :
    History.Balanced (c.callShows n request) := by
  unfold callShows
  split <;> rfl

/-- The task that reads has begun no message of an operation, and it answers requests. -/
theorem Connection.ReadingStep.balanced {c d : Connection} {shown : History}
    {notice : Option ServerNotice} (step : c.ReadingStep shown d notice) :
    shown.Balanced ∧ shown.messages = [] := by
  obtain ⟨_, _, rfl⟩ | ⟨_, rfl⟩ | ⟨log, rfl, others⟩ := step.shows
  · exact ⟨rfl, rfl⟩
  · exact ⟨rfl, rfl⟩
  · refine ⟨History.balanced_map_wire fun e he ↦ ?_, History.messages_map_wire log⟩
    obtain ⟨_, rfl⟩ | ⟨_, rfl⟩ | ⟨rfl, -⟩ := others e he <;> rfl

/-- What the start of an operation shows has its reason. -/
theorem ClientTask.balanced_startShows (n : Nat) (r : ClientRequest) (c : Client) :
    History.Balanced (startShows n r c) := by
  cases r with
  | connect root => exact Connection.balanced_callShows ..
  | document r =>
    simp only [startShows]
    split <;> rfl
  | completion uri position =>
    simp only [startShows]
    split
    · exact Connection.balanced_callShows ..
    · rfl
  | shutdown =>
    simp only [startShows]
    split <;> rfl

/-- What a step of an operation shows has its reason. -/
theorem ClientTask.balanced_shows (n now : Nat) (task : ClientTask) (c : Client) :
    History.Balanced (task.shows n now c) := by
  refine (History.balanced_map_wire WriteCall.order?_showsOf).append ?_
  split
  · split
    · unfold outcomeShows
      split <;> rfl
    · rfl
  · next call =>
    split
    · refine History.balanced_map_wire fun e he ↦ ?_
      cases call with
      | queued data => cases he
      | writing rest => rw [List.mem_singleton.mp he]; rfl
    · rfl
  · rfl

namespace ClientSession

variable {s : ClientSession} {h : History} {accepted : List Client.DocumentRequest}
  {language : String} {limit : Option Duration} {capacity : Nat} {installed : Bool}

/-- On every run everything that somebody wants to write has its reason. -/
theorem Run.balanced {s₀ : ClientSession} (run : Run s₀ h accepted s) : h.Balanced := by
  induction run with
  | refl => rfl
  | start _ n r _ _ ih => exact ih.append (ClientTask.balanced_startShows ..)
  | @advance _ _ s _ _ n _ ih =>
    refine ih.append ?_
    unfold advanceShows
    split
    · exact ClientTask.balanced_shows ..
    · rfl
  | read _ step ih | callbackFails _ step _ ih =>
    obtain ⟨⟨_, reads⟩, -⟩ := read_spec step
    exact ih.append reads.balanced.1
  | event _ _ ih => exact ih

end ClientSession

/-! ## The dialogue of a client -/

/-- What a client may say, in order: it introduces itself, says that the handshake is complete,
speaks of documents, and says last that it shuts down. -/
inductive Dialogue : List ClientMessage → Prop where
  | silent : Dialogue []
  | greeted (id : Int) (rootUri : String) : Dialogue [.greeting id rootUri]
  | serving (id : Int) (rootUri : String) {operations : List ClientMessage}
      (only : ∀ m ∈ operations, m.IsOperation) :
      Dialogue (.greeting id rootUri :: .notice .handshakeDone :: operations)
  | ended (id : Int) (rootUri : String) {operations : List ClientMessage}
      (only : ∀ m ∈ operations, m.IsOperation) :
      Dialogue (.greeting id rootUri :: .notice .handshakeDone ::
        (operations ++ [.notice .shutdown]))

namespace Dialogue

variable {first second : ClientMessage} {word rest part : List ClientMessage}

/-- After the handshake anything may be left out. -/
theorem leaveOut (dialogue : Dialogue (first :: second :: rest)) (fewer : part.Sublist rest) :
    Dialogue (first :: second :: part) := by
  cases dialogue with
  | serving id rootUri only => exact .serving id rootUri fun m hm ↦ only m (fewer.subset hm)
  | @ended id rootUri operations only =>
    obtain ⟨kept, last, rfl, hkept, hlast⟩ := List.sublist_append_iff.mp fewer
    have only : ∀ m ∈ kept, m.IsOperation := fun m hm ↦ only m (hkept.subset hm)
    obtain rfl | rfl := List.sublist_singleton.mp hlast
    · rw [List.append_nil]
      exact .serving id rootUri only
    · exact .ended id rootUri only

/-- A shutdown is said once, and nothing is said after it. -/
theorem shutdown_last (dialogue : Dialogue word) (said : .notice .shutdown ∈ word) :
    ∃ before, word = before ++ [.notice .shutdown] ∧ .notice .shutdown ∉ before := by
  have none {id : Int} {rootUri : String} {operations : List ClientMessage}
      (only : ∀ m ∈ operations, m.IsOperation) :
      .notice .shutdown ∉ ClientMessage.greeting id rootUri :: .notice .handshakeDone ::
        operations := by
    simp only [ClientMessage.greeting, List.mem_cons, reduceCtorEq, ClientMessage.notice.injEq,
      false_or]
    exact fun hm ↦ only _ hm
  cases dialogue with
  | silent => cases said
  | greeted => simp [ClientMessage.greeting] at said
  | serving id rootUri only => exact absurd said (none only)
  | @ended id rootUri operations only =>
    exact ⟨.greeting id rootUri :: .notice .handshakeDone :: operations, rfl, none only⟩

end Dialogue

/-! ### What has gone out -/

namespace History

variable {h more : History} {id : Int} {rootUri : String}

/-- These messages have gone out before all others. -/
def Sent (h : History) (messages : List ClientMessage) : Prop :=
  messages.map (·.frame) <+: h.finished

/-- The result of the first message was read before there was anything else to say, let alone on
the wire. -/
def Answered (h : History) (id : Int) (rootUri : String) (v : Json) : Prop :=
  ∃ before after : History, h = before ++ .responded id (.ok v) :: after ∧
    before.messages = [.greeting id rootUri] ∧
    before.begun.Sublist [(ClientMessage.greeting id rootUri).frame]

/-- The server has accepted the first message before there was anything else to say. -/
def Accepted (h : History) (id : Int) (rootUri : String) : Prop :=
  ∃ v server, h.Answered id rootUri v ∧ Connecting.serverOf v = .ok server

theorem Answered.append {v : Json} (answered : h.Answered id rootUri v) (more : History) :
    (h ++ more).Answered id rootUri v := by
  obtain ⟨before, after, rfl, said⟩ := answered
  exact ⟨before, after ++ more, by rw [List.append_assoc, List.cons_append], said⟩

theorem Accepted.append (accepted : h.Accepted id rootUri) (more : History) :
    (h ++ more).Accepted id rootUri := by
  obtain ⟨v, server, answered, hserver⟩ := accepted
  exact ⟨v, server, answered.append more, hserver⟩

/-- The frames that have gone out are some of those that were begun. -/
theorem finished_sublist_begun (h : History) : h.finished.Sublist h.begun :=
  (List.filter_sublist.map _).filterMap _

/-- Of what was said after what has gone out before all others, some has gone out. -/
theorem Sent.exists_word {first rest : List ClientMessage} (sent : h.Sent first)
    (said : h.messages = first ++ rest)
    (finished : h.finished.Sublist (h.messages.map (·.frame))) :
    ∃ part, part.Sublist rest ∧ h.finished = (first ++ part).map (·.frame) := by
  obtain ⟨tail, htail⟩ := sent
  rw [said, ← htail, List.map_append, List.append_sublist_append_left, List.sublist_map_iff]
    at finished
  obtain ⟨part, hpart, rfl⟩ := finished
  exact ⟨part, hpart, by rw [← htail, List.map_append]⟩

end History

namespace ClientSession

variable {s t : ClientSession} {h shown : History} {n : Nat} {disturbed : Prop}

/-- The frames that were begun are some of those of the messages, in order. -/
theorem begun_sublist (orderly : Orderly s.client.connection.transport s.writers h.events)
    (balanced : h.Balanced) : h.begun.Sublist (h.messages.map (·.frame)) := by
  rw [← balanced.operations]
  exact ((List.sublist_append_left ..).trans orderly.inOrder).filterMap _

/-- What has gone out before all others stays so. -/
theorem sent_append {messages : List ClientMessage} (sent : h.Sent messages)
    (orderly : Orderly s.client.connection.transport s.writers h.events)
    (writes : Writes disturbed s.client.connection.transport s.writers shown.events
      t.client.connection.transport t.writers) : (h ++ shown).Sent messages := by
  refine List.IsPrefix.trans sent ?_
  rw [History.finished, History.finished, History.events_append]
  exact (orderly.completed_writes writes).filterMap _

/-! ### Before the end -/

/-- Nobody has begun to end the client, and nothing is lost on the way to the server. -/
structure Undisturbed (s : ClientSession) (h : History) : Prop where
  going : s.client.connection.stopping = false
  lossless : Lossless s.client.connection.transport s.writers h.events

namespace Undisturbed

/-- What writers do undisturbed loses nothing. -/
theorem writes (undisturbed : s.Undisturbed h)
    (orderly : Orderly s.client.connection.transport s.writers h.events)
    (writes : Writes disturbed s.client.connection.transport s.writers shown.events
      t.client.connection.transport t.writers)
    (calm : ¬ disturbed) (going : t.client.connection.stopping = false) :
    t.Undisturbed (h ++ shown) := by
  refine ⟨going, ?_⟩
  rw [History.events_append]
  exact undisturbed.lossless.writes orderly (writes.mono calm)

/-- When an operation has written its frame and no other waits, everything has gone out. -/
theorem sent_messages (undisturbed : s.Undisturbed h)
    (orderly : Orderly s.client.connection.transport s.writers h.events) (balanced : h.Balanced)
    (writing : s.writers (.operation n) = some (.writing []))
    (sole : ∀ m, m ≠ n → s.writers (.operation m) = none) : h.Sent h.messages := by
  have frames : ∀ order ∈ WireEvent.orders h.events, order.2 ≠ [] := by
    intro order horder
    rw [balanced, List.mem_filterMap] at horder
    obtain ⟨x, -, hx⟩ := horder
    obtain ⟨body, hbody⟩ := Occurrence.exists_body_of_order? hx
    rw [hbody]
    exact Frame.encode_ne_nil body
  have waiting : (s.writers.orders s.client.connection.transport.writers.line).filterMap
      operationFrame? = [] := by
    rw [Writers.orders, List.filterMap_filterMap, List.filterMap_eq_nil_iff]
    intro a _
    cases a with
    | reading => cases s.writers .reading with
      | none => rfl
      | some call => cases call <;> rfl
    | operation m =>
      by_cases hm : m = n
      · rw [hm, writing]
        rfl
      · rw [sole m hm]
        rfl
  have exact := congrArg (List.filterMap operationFrame?) undisturbed.lossless.exact
  rw [List.filterMap_append, waiting, List.append_nil, balanced.operations,
    ← undisturbed.lossless.completed_eq orderly frames writing] at exact
  rw [History.Sent, History.finished, exact]

end Undisturbed

end ClientSession

end LanguageHub
