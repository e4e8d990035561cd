import LanguageHub.Proofs.Client.Stages
import LanguageHub.Proofs.Message.Documents

/-!
# The synchronisation of documents

The notifications about documents that a server has received are those of the first document
operations that were accepted, in the order in which these were started. Each has the URI and the
text that were given, and the version of a change counts the changes of its document since that was
last opened.
-/

namespace LanguageHub

/-! ### What a server is to be told -/

namespace Client.DocumentRequest

/-- The operation opens a document. -/
def opens (uri : String) : DocumentRequest → Bool
  | opened u _ => u = uri
  | changed .. | saved .. => false

/-- The operation changes a document. -/
def changes (uri : String) : DocumentRequest → Bool
  | changed u _ => u = uri
  | opened .. | saved .. => false

/-- The operation changes some document. -/
def isChange : DocumentRequest → Bool
  | changed .. => true
  | opened .. | saved .. => false

/-- How often a document was changed since it was last opened, or at all if it never was. -/
def changesSinceOpened (uri : String) (requests : List DocumentRequest) : Nat :=
  (requests.reverse.takeWhile fun r ↦ !r.opens uri).countP (·.changes uri)

/-- The notification for the last of some operations. -/
def stamp (language : String) (requests : List DocumentRequest) : DocumentRequest → Notice
  | opened uri text => .didOpen uri language 1 text
  | changed uri text => .didChange uri (1 + changesSinceOpened uri requests) [text]
  | saved uri text => .didSave uri (some text)

/-- The notifications for some operations, each with the version that follows from it and from
those before it. -/
def stamped (language : String) (requests : List DocumentRequest) : List Notice :=
  requests.mapIdx fun i r ↦ stamp language (requests.take (i + 1)) r

variable {language : String} {requests : List DocumentRequest} {r : DocumentRequest}
  {uri : String} {notice : Notice}

/-- One more operation. -/
theorem changesSinceOpened_concat :
    changesSinceOpened uri (requests ++ [r]) =
      if r.opens uri then 0
      else changesSinceOpened uri requests + if r.changes uri then 1 else 0 := by
  cases hopens : r.opens uri with
  | true => simp [changesSinceOpened, hopens]
  | false => simp [changesSinceOpened, hopens, List.countP_cons]

theorem changesSinceOpened_le :
    changesSinceOpened uri requests ≤ requests.countP isChange := by
  have kind (r : DocumentRequest) : r.changes uri → r.isChange := by
    cases r <;> simp [changes, isChange]
  calc changesSinceOpened uri requests
    _ ≤ requests.reverse.countP (·.changes uri) :=
      (List.takeWhile_sublist _).countP_le
    _ ≤ requests.reverse.countP isChange := List.countP_mono_left fun r _ ↦ kind r
    _ = requests.countP isChange := List.countP_reverse

@[simp]
theorem isDocument_stamp : (r.stamp language requests).isDocument = true := by
  cases r <;> rfl

/-- One more operation leads to one more notification. -/
theorem stamped_concat :
    stamped language (requests ++ [r]) =
      stamped language requests ++ [r.stamp language (requests ++ [r])] := by
  rw [stamped, List.mapIdx_concat, List.take_of_length_le (by simp)]
  congr 1
  refine List.mapIdx_eq_mapIdx_iff.mpr fun i hi ↦ ?_
  rw [List.take_append_of_le_length hi]

/-- With few changes all versions are words of 32 bits. -/
theorem fits_of_mem_stamped (few : requests.countP isChange < 0x7FFFFFFF)
    (mem : notice ∈ stamped language requests) : notice.Fits := by
  obtain ⟨i, hi, rfl⟩ := List.mem_mapIdx.mp mem
  have bound (uri : String) :
      changesSinceOpened uri (requests.take (i + 1)) ≤ requests.countP isChange :=
    changesSinceOpened_le.trans ((List.take_sublist _ _).countP_le)
  cases requests[i] with
  | opened => exact ⟨by decide, by decide⟩
  | changed uri text =>
    have bound := bound uri
    exact ⟨by omega, by omega⟩
  | saved => exact trivial

end Client.DocumentRequest

open Client.DocumentRequest

/-! ### What the operations begin -/

/-- The notification about a document that a message is. -/
def ClientMessage.document? : ClientMessage → Option Notice
  | notice n => if n.isDocument then some n else none
  | request .. => none

namespace History

variable {h more : History}

/-- The notifications about documents that operations have begun, in order. -/
def documents (h : History) : List Notice := h.messages.filterMap ClientMessage.document?

@[simp]
theorem documents_append (h more : History) :
    documents (h ++ more) = documents h ++ documents more := by
  simp [documents]

theorem documents_noticeShows (n : Nat) {notice : Notice} (about : notice.isDocument = true) :
    documents (Connection.noticeShows n notice) = [notice] := by
  simp [documents, messages, Connection.noticeShows, Occurrence.message?,
    ClientMessage.document?, about]

theorem documents_of_silent (silent : h.messages = []) : h.documents = [] := by
  rw [documents, silent, List.filterMap_nil]

end History

namespace ClientTask

variable {n now : Nat} {c : Client}

/-- Only an operation with a document begins a notification about one. -/
theorem documents_startShows {r : ClientRequest} (other : ∀ q, r ≠ .document q) :
    (startShows n r c).documents = [] := by
  cases r with
  | connect root =>
    simp only [startShows, Connection.callShows]
    split <;> rfl
  | document q => exact absurd rfl (other q)
  | completion uri position =>
    simp only [startShows, Connection.callShows]
    split
    · split <;> rfl
    · rfl
  | shutdown =>
    simp only [startShows]
    split <;> rfl

/-- An operation that goes on begins no notification about a document. -/
theorem documents_shows (task : ClientTask) : (task.shows n now c).documents = [] := by
  have outcome (o : Outcome) : (outcomeShows n o).documents = [] := by
    unfold outcomeShows
    split <;> rfl
  cases task with
  | connect k =>
    simp only [shows, History.documents_append,
      History.documents_of_silent (History.messages_map_wire _), List.nil_append]
    cases k with
    | asking =>
      dsimp only
      split
      · exact outcome _
      · rfl
    | confirming | abandoning => rfl
  | document | completion => exact History.documents_of_silent (Serves.messages_shows trivial)
  | shutdown k => exact History.documents_of_silent (messages_shows_shutdown k)

end ClientTask

/-! ### What a server reads -/

/-- The body of the frame that somebody wants to write for a reason that the history shows. -/
def Occurrence.body? : Occurrence → Option String
  | called _ id request => some (request.encode id)
  | notified _ notice => some notice.encode
  | requested id => some (encodeNullReply id)
  | _ => none

namespace History

variable {h : History}

/-- The bodies of the frames that somebody wants to write, in order. -/
def bodies (h : History) : List String := h.filterMap Occurrence.body?

/-- What somebody wants to write are the frames of these bodies. -/
theorem Balanced.flatMap_orders (balanced : h.Balanced) :
    (WireEvent.orders h.events).flatMap (·.2) = h.bodies.flatMap Frame.encode := by
  rw [balanced, bodies]
  clear balanced
  induction h with
  | nil => rfl
  | cons x h ih =>
    cases x with
    | called | notified | requested => exact congrArg (_ ++ ·) ih
    | _ => exact ih

/-- A server finds in the bodies the notifications about documents and no others. -/
theorem filterMap_readDocument? (fits : ∀ notice ∈ h.documents, notice.Fits) :
    (h.bodies.map Utf8.encode).filterMap readDocument? = h.documents := by
  have reads {n : Nat} {notice : Notice} (mem : .notified n notice ∈ h) :
      readDocument? (Utf8.encode notice.encode) =
        (ClientMessage.notice notice).document? := by
    refine notice.readDocument?_encode ?_
    cases hkind : notice.isDocument with
    | true =>
      refine fits notice (List.mem_filterMap.mpr ⟨.notice notice, ?_, if_pos hkind⟩)
      exact List.mem_filterMap.mpr ⟨_, mem, rfl⟩
    | false =>
      cases notice with
      | handshakeDone | shutdown => exact trivial
      | _ => cases hkind
  rw [List.filterMap_map, bodies, documents, messages, List.filterMap_filterMap,
    List.filterMap_filterMap]
  refine List.filterMap_congr fun x hx ↦ ?_
  cases x with
  | called n id request =>
    simp only [Occurrence.body?, Occurrence.message?, Option.bind_some, Function.comp_apply,
      readDocument?_request, ClientMessage.document?]
  | notified n notice =>
    simp only [Occurrence.body?, Occurrence.message?, Option.bind_some, Function.comp_apply,
      reads hx]
  | requested id =>
    simp only [Occurrence.body?, Occurrence.message?, Option.bind_some, Option.bind_none,
      Function.comp_apply, readDocument?_nullReply]
  | _ => rfl

end History

namespace ClientSession

variable {s t : ClientSession} {h : History} {accepted : List Client.DocumentRequest}
  {language : String} {limit : Option Duration} {capacity : Nat} {installed : Bool}

/-- As long as nobody has begun to end the client, the server receives the beginning of what was
asked for, in order. -/
theorem Undisturbed.received_isPrefix (undisturbed : s.Undisturbed h)
    (orderly : Orderly s.client.connection.transport s.writers h.events) (balanced : h.Balanced) :
    s.client.connection.transport.sink.received <+: h.bodies.flatMap Frame.encode := by
  have written : s.client.connection.transport.sink.written <+: h.bodies.flatMap Frame.encode := by
    rw [orderly.written, ← balanced.flatMap_orders]
    exact undisturbed.lossless.flatMap_sent_isPrefix orderly
  exact (List.prefix_append _ _).trans written

end ClientSession

/-! ### What a client knows of documents -/

/-- The client knows the versions that follow from some operations. -/
structure Client.Knows (c : Client) (language : String)
    (requests : List Client.DocumentRequest) : Prop where
  speaks : c.language = language
  versions : ∀ uri, (c.versions.get? uri).getD 1 = 1 + changesSinceOpened uri requests

namespace Client

variable {c d : Client} {language : String} {requests : List DocumentRequest}

/-- The notification for one more operation, and the versions after it. -/
theorem Knows.documentNotice (knows : c.Knows language requests) (r : DocumentRequest) :
    (c.documentNotice r).1 = r.stamp language (requests ++ [r]) ∧
      (c.documentNotice r).2.Knows language (requests ++ [r]) := by
  obtain ⟨speaks, versions⟩ := knows
  have next (uri : String) :
      c.nextVersion uri = 1 + (changesSinceOpened uri requests + 1 : Nat) := by
    rw [nextVersion, versions]
    omega
  cases r with
  | opened uri text =>
    refine ⟨by rw [← speaks]; rfl, speaks, fun u ↦ ?_⟩
    simp only [Client.documentNotice, Dictionary.get?_insert, changesSinceOpened_concat, opens,
      changes, decide_eq_true_eq]
    by_cases hu : u = uri
    · simp [hu]
    · simp [hu, Ne.symm hu, versions]
  | changed uri text =>
    have count : changesSinceOpened uri (requests ++ [.changed uri text]) =
        changesSinceOpened uri requests + 1 := by
      simp [changesSinceOpened_concat, opens, changes]
    refine ⟨by rw [stamp, count, ← next]; rfl, speaks, fun u ↦ ?_⟩
    simp only [Client.documentNotice, Dictionary.get?_insert]
    by_cases hu : u = uri
    · rw [if_pos hu, hu, count, ← next]
      rfl
    · rw [if_neg hu, versions]
      simp [changesSinceOpened_concat, opens, changes, Ne.symm hu]
  | saved uri text =>
    refine ⟨rfl, speaks, fun u ↦ ?_⟩
    rw [changesSinceOpened_concat]
    simp [Client.documentNotice, opens, changes, versions]

end Client

namespace ClientSession

variable {s t : ClientSession} {h : History} {accepted : List Client.DocumentRequest}
  {language : String} {limit : Option Duration} {capacity : Nat} {installed : Bool}
  {child : Option Child}

/-- The client of a session in which a document operation has begun. -/
theorem client_start_document (s : ClientSession) (n : Nat) (r : Client.DocumentRequest) :
    (s.start n (.document r)).client = (s.client.startDocument (.operation n) r).2 := by
  obtain ⟨p, hstart, -, -⟩ := start_spec s n (.document r)
  simp only [ClientTask.start] at hstart
  split at hstart <;> next hbegins => rw [hbegins, ← (Prod.mk.inj hstart).2]

/-- The client knows the versions that follow from the operations that were accepted, and it has
begun the notifications for these. -/
structure Synchronised (s : ClientSession) (language : String)
    (accepted : List Client.DocumentRequest) (h : History) : Prop
    extends s.client.Knows language accepted where
  documents : h.documents = stamped language accepted

namespace Synchronised

/-- What leaves the versions alone and begins no notification about a document. -/
theorem keeps (synchronised : s.Synchronised language accepted h)
    (sameLanguage : t.client.language = s.client.language)
    (sameVersions : t.client.versions = s.client.versions) {shown : History}
    (none : shown.documents = []) : t.Synchronised language accepted (h ++ shown) where
  speaks := sameLanguage.trans synchronised.speaks
  versions := by simpa only [sameVersions] using synchronised.versions
  documents := by rw [History.documents_append, none, List.append_nil, synchronised.documents]

/-- A document operation begins its notification if it is accepted. -/
theorem start_document (synchronised : s.Synchronised language accepted h) (n : Nat)
    (r : Client.DocumentRequest) :
    (s.start n (.document r)).Synchronised language (accepted ++ s.accepts (.document r))
      (h ++ s.startShows n (.document r)) := by
  have client := client_start_document s n r
  simp only [Client.startDocument, Client.refusal?] at client
  simp only [accepts, startShows, ClientTask.startShows]
  cases hready : s.client.isReady with
  | false =>
    rw [hready] at client
    have same : (s.start n (.document r)).client = s.client := client
    simp only [Bool.false_eq_true, if_false, List.append_nil]
    exact ⟨same ▸ synchronised.toKnows, synchronised.documents⟩
  | true =>
    rw [hready] at client
    obtain ⟨notice, speaks, versions⟩ := synchronised.toKnows.documentNotice r
    simp only [if_true] at client ⊢
    refine ⟨⟨?_, ?_⟩, ?_⟩
    · rw [client]
      exact speaks
    · rw [client]
      exact versions
    · rw [History.documents_append, synchronised.documents, stamped_concat, notice,
        History.documents_noticeShows n isDocument_stamp]

end Synchronised

/-- On every run the client is synchronised. -/
theorem Run.synchronised
    (run : Run (hosted language limit capacity installed child) h accepted s) :
    s.Synchronised language accepted h := by
  induction run with
  | refl => exact ⟨⟨rfl, fun _ ↦ rfl⟩, rfl⟩
  | @start h _ s _ n r _ _ ih =>
    by_cases other : ∀ q, r ≠ .document q
    · obtain ⟨p, hstart, -, -⟩ := start_spec s n r
      have keeps := ClientTask.keeps_start n s.now s.client other
      rw [hstart] at keeps
      have none : s.accepts r = [] := by
        cases r with
        | document q => exact absurd rfl (other q)
        | _ => rfl
      rw [none, List.append_nil]
      exact ih.keeps keeps.language keeps.versions (ClientTask.documents_startShows other)
    · obtain ⟨q, rfl⟩ : ∃ q, r = .document q := by simpa using other
      exact ih.start_document n q
  | @advance _ _ s _ _ n step ih =>
    obtain ⟨task, p, going, hstep, -, -⟩ := advance_spec step
    have keeps := ClientTask.keeps_of_step? hstep
    refine ih.keeps keeps.language keeps.versions ?_
    rw [advanceShows, going]
    exact ClientTask.documents_shows task
  | read _ step ih =>
    obtain ⟨⟨_, reads⟩, -, -, stays, versions⟩ := read_spec step
    exact ih.keeps stays.language versions (History.documents_of_silent reads.balanced.2)
  | callbackFails _ step _ ih =>
    obtain ⟨⟨_, reads⟩, -, -, stays, versions⟩ := read_spec step
    have after := ih.keeps stays.language versions (History.documents_of_silent reads.balanced.2)
    exact ⟨⟨after.speaks, after.versions⟩, after.documents⟩
  | event _ e ih => cases e <;> exact ⟨⟨ih.speaks, ih.versions⟩, ih.documents⟩

/-- The notifications about documents that the server of a client that is ready has received are
those of the first operations that were accepted, in the order in which these were started. -/
theorem documents_received
    (run : Run (hosted language limit capacity installed child) h accepted s)
    (ready : s.client.phase = .ready)
    (few : accepted.countP Client.DocumentRequest.isChange < 0x7FFFFFFF) :
    (Frame.split s.client.connection.transport.sink.received).1.filterMap readDocument? <+:
      stamped language accepted := by
  have undisturbed : s.Undisturbed h := by
    cases run.stage with
    | serving _ _ _ _ _ undisturbed => exact undisturbed
    | fresh _ phase | asking _ phase | confirming _ phase => rw [phase] at ready; cases ready
    | failing _ _ unready => exact absurd ready unready
    | ending _ _ gone => obtain gone | gone := gone <;> rw [gone] at ready <;> cases ready
  have bodies := Frame.split_isPrefix
    (undisturbed.received_isPrefix run.orderly run.balanced)
  have documents := run.synchronised.documents
  rw [← documents, ← h.filterMap_readDocument?]
  · exact bodies.filterMap readDocument?
  · rw [documents]
    exact fun notice ↦ fits_of_mem_stamped few

/-- A document is opened. -/
def opening : Client.DocumentRequest := .opened "file:///w/a.py" "a = \"\\\"\n"

/-- The document is changed. -/
def changing : Client.DocumentRequest := .changed "file:///w/a.py" "é"

/-- A client that opens a document. -/
def telling : ClientSession := (greeted 4000 none).start 1 (.document opening)

/-- A server that has read everything that was told of a document that was opened and changed. -/
def told : ClientSession :=
  (settle advanceAny? 30 (telling.start 2 (.document changing))).happen (.deliver 4000)

/-- Both operations are admitted and accepted, and their notifications have been received behind
the two messages of the handshake. -/
private theorem admits_told :
    (1 ∉ (greeted 4000 none).numbers ∧ (greeted 4000 none).isConnected ∧
      (greeted 4000 none).client.isReady) ∧
    (2 ∉ telling.numbers ∧ telling.isConnected ∧ telling.client.isReady) ∧
    told.client.phase = .ready ∧
    (Frame.split told.client.connection.transport.sink.received).1.drop 2 =
      (stamped "python" [opening, changing]).map fun n ↦ Utf8.encode n.encode := by
  decide +kernel

/-- A server has received what it was told of a document. -/
theorem documents_received_told : ∃ h accepted,
    Run (hosted "python" none 4000 true none) h accepted told ∧ told.client.phase = .ready ∧
    accepted = [opening, changing] ∧
    (Frame.split told.client.connection.transport.sink.received).1.drop 2 =
      (stamped "python" accepted).map (fun n ↦ Utf8.encode n.encode) ∧
    (Frame.split told.client.connection.transport.sink.received).1.filterMap readDocument? <+:
      stamped "python" accepted := by
  obtain ⟨first, second, ready, received⟩ := admits_told
  obtain ⟨_, run⟩ := run_greeted 4000 none
  have run := run.start 1 (.document opening) first.1 first.2.1
  obtain ⟨h, run⟩ := (Run.start run 2 (.document changing) second.1 second.2.1).settle 30
  have run : Run (hosted "python" none 4000 true none) h
      ([] ++ (greeted 4000 none).accepts (.document opening) ++
        telling.accepts (.document changing)) told :=
    run.event (.deliver 4000)
  simp only [accepts, first.2.2, second.2.2, if_true, List.nil_append, List.singleton_append]
    at run
  exact ⟨h, _, run, ready, rfl, received, documents_received run ready (by decide)⟩

end ClientSession

end LanguageHub
